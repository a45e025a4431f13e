import JoinPlan.Text.Unprintable

/-!
# Text quoted for a reader

Messages quote a text in double quotes so that every character of it can be told: quotes,
backslashes, line ends and tabs by a letter, and what has no shape of its own by its code.
-/

namespace JoinPlan

namespace Text

/-- A number in lower-case hexadecimal digits. -/
def hexText (n : Nat) : List Char :=
  Nat.toDigits 16 n

/-- How a character is shown between double quotes. -/
def shownChar (c : Char) : List Char :=
  match c with
  | '\x00' => ['\\', '0']
  | '\t' => ['\\', 't']
  | '\n' => ['\\', 'n']
  | '\r' => ['\\', 'r']
  | '"' => ['\\', '"']
  | '\\' => ['\\', '\\']
  | c =>
    if isUnprintable c then ['\\', 'u', '\x7b'] ++ hexText c.toNat ++ ['\x7d'] else [c]

/-- A text between double quotes, as messages show it. -/
def shown (text : String) : String :=
  "\"" ++ String.ofList (text.toList.flatMap shownChar) ++ "\""

end Text

end JoinPlan
