import JoinPlan.Json.Number

/-!
# The words of a JSON text

A JSON text is cut into tokens before anything is nested. The lexer is strict about the grammar
and about control characters; what only a reader of the value can object to, a number beyond
every double or half of a surrogate pair, is kept in the token as an absent value.

## Main definitions

* `Json.Token`: a word of the text.
* `Json.decodeUnits`: code units, surrogate pairs joined; half a pair has no text.
* `Json.tokens?`: the tokens of a text.
-/

namespace JoinPlan

namespace Json

/-- A word of a JSON text. -/
inductive Token where
  | openBrace
  | closeBrace
  | openBracket
  | closeBracket
  | comma
  | colon
  | null
  | bool (value : Bool)
  | num (literal : Literal)
  /-- A text between quotes, absent where its escapes leave half a surrogate pair. -/
  | str (text : Option String)
  deriving DecidableEq, Repr

/-- The four characters that may stand between tokens. -/
def isBlank (c : Char) : Bool :=
  c = ' ' || c = '\n' || c = '\t' || c = '\r'

/-! ### Texts between quotes -/

/-- The value of a hexadecimal digit, in either case. -/
def hexDigit? (c : Char) : Option Nat :=
  if '0' ≤ c ∧ c ≤ '9' then some (c.toNat - '0'.toNat)
  else if 'a' ≤ c ∧ c ≤ 'f' then some (c.toNat - 'a'.toNat + 10)
  else if 'A' ≤ c ∧ c ≤ 'F' then some (c.toNat - 'A'.toNat + 10)
  else none

/-- The code unit that four hexadecimal digits write. -/
def hexUnit? (a b c d : Char) : Option Nat := do
  let a ← hexDigit? a
  let b ← hexDigit? b
  let c ← hexDigit? c
  let d ← hexDigit? d
  return ((a * 16 + b) * 16 + c) * 16 + d

/-- The character that a one-letter escape stands for. -/
def shortEscape? : Char → Option Char
  | '"' => some '"'
  | '\\' => some '\\'
  | '/' => some '/'
  | 'b' => some '\x08'
  | 'f' => some '\x0c'
  | 'n' => some '\n'
  | 'r' => some '\r'
  | 't' => some '\t'
  | _ => none

/-- Reads up to the closing quote: the code units, last first, and what follows the quote. A
control character must be escaped. -/
def quotedUnits (acc : List Nat) : List Char → Option (List Nat × List Char)
  | [] => none
  | '"' :: rest => some (acc, rest)
  | '\\' :: 'u' :: a :: b :: c :: d :: rest =>
    match hexUnit? a b c d with
    | some unit => quotedUnits (unit :: acc) rest
    | none => none
  | '\\' :: c :: rest =>
    match shortEscape? c with
    | some e => quotedUnits (e.toNat :: acc) rest
    | none => none
  | c :: rest =>
    if c = '\\' ∨ c.toNat < 0x20 then none else quotedUnits (c.toNat :: acc) rest

/-- The characters of a list of code units. A leading surrogate needs its trailing one right
after it. -/
def decodeUnits : List Nat → Option (List Char)
  | [] => some []
  | high :: low :: rest =>
    if 0xD800 ≤ high ∧ high < 0xDC00 then
      if 0xDC00 ≤ low ∧ low < 0xE000 then
        (decodeUnits rest).map
          (Char.ofNat (0x10000 + (high - 0xD800) * 0x400 + (low - 0xDC00)) :: ·)
      else none
    else if 0xDC00 ≤ high ∧ high < 0xE000 then none
    else (decodeUnits (low :: rest)).map (Char.ofNat high :: ·)
  | [unit] => if 0xD800 ≤ unit ∧ unit < 0xE000 then none else some [Char.ofNat unit]

/-! ### Numbers -/

/-- The digits a text starts with, as numbers, and the rest. -/
def leadingDigits (cs : List Char) : List Nat × List Char :=
  ((cs.takeWhile Char.isDigit).map fun c => c.toNat - '0'.toNat, cs.dropWhile Char.isDigit)

/-- A point and the digits after it, if the text starts with a point. A point without digits is
an error. -/
def fraction? : List Char → Option (Option (List Nat) × List Char)
  | '.' :: rest =>
    match leadingDigits rest with
    | ([], _) => none
    | (digits, rest) => some (some digits, rest)
  | rest => some (none, rest)

/-- The digits of an exponent, after its sign. -/
def unsignedExponent? (negative : Bool) (cs : List Char) :
    Option (Option Int × List Char) :=
  match leadingDigits cs with
  | ([], _) => none
  | (digits, rest) =>
    let power : Int := Literal.natOfDigits digits
    some (some (if negative then -power else power), rest)

/-- An exponent, if the text starts with its mark. A mark without digits is an error. -/
def exponent? : List Char → Option (Option Int × List Char)
  | [] => some (none, [])
  | c :: rest =>
    if c = 'e' ∨ c = 'E' then
      match rest with
      | '+' :: rest => unsignedExponent? false rest
      | '-' :: rest => unsignedExponent? true rest
      | rest => unsignedExponent? false rest
    else some (none, c :: rest)

/-- The number a text starts with, after its sign. A whole part of several digits does not start
with zero. -/
def unsignedLiteral? (negative : Bool) (cs : List Char) : Option (Literal × List Char) := do
  let (whole, rest) ← match leadingDigits cs with
    | ([], _) => none
    | (0 :: _ :: _, _) => none
    | (whole, rest) => some (whole, rest)
  let (fraction, rest) ← fraction? rest
  let (exponent, rest) ← exponent? rest
  return (⟨negative, whole, fraction, exponent⟩, rest)

/-! ### Tokens -/

/-- The token a text starts with, and the rest. -/
def token? : List Char → Option (Token × List Char)
  | '\x7b' :: rest => some (.openBrace, rest)
  | '\x7d' :: rest => some (.closeBrace, rest)
  | '[' :: rest => some (.openBracket, rest)
  | ']' :: rest => some (.closeBracket, rest)
  | ',' :: rest => some (.comma, rest)
  | ':' :: rest => some (.colon, rest)
  | 'n' :: 'u' :: 'l' :: 'l' :: rest => some (.null, rest)
  | 't' :: 'r' :: 'u' :: 'e' :: rest => some (.bool true, rest)
  | 'f' :: 'a' :: 'l' :: 's' :: 'e' :: rest => some (.bool false, rest)
  | '"' :: rest =>
    (quotedUnits [] rest).map fun (units, rest) =>
      (.str ((decodeUnits units.reverse).map String.ofList), rest)
  | '-' :: rest => (unsignedLiteral? true rest).map fun (l, rest) => (.num l, rest)
  | cs => (unsignedLiteral? false cs).map fun (l, rest) => (.num l, rest)

/-- The tokens of the rest of a text after those in `acc`; every round takes at least one
character, so the length of the text bounds the rounds. -/
def tokensFrom : Nat → List Token → List Char → Option (List Token)
  | _, acc, [] => some acc.reverse
  | 0, _, _ :: _ => none
  | rounds + 1, acc, c :: rest =>
    if isBlank c then tokensFrom rounds acc rest
    else
      match token? (c :: rest) with
      | some (token, rest) => tokensFrom rounds (token :: acc) rest
      | none => none

/-- The tokens of a text, or nothing where some part of it is no token. -/
def tokens? (text : String) : Option (List Token) :=
  tokensFrom text.length [] text.toList

end Json

end JoinPlan
