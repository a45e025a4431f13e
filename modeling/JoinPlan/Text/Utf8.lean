/-!
# Reading bytes as text

Bytes that should be UTF-8 become text whatever they are. Where they break off, the longest
start of a character that they hold is replaced by one U+FFFD.

## Main definitions

* `Text.Utf8.Pending`: a character that has begun and still lacks bytes.
* `Text.Utf8.decode`: the text of any list of bytes.
-/

namespace JoinPlan

namespace Text

namespace Utf8

/-- A character that has begun: the bits so far, how many bytes it lacks, and the bounds on the
next of them. -/
structure Pending where
  bits : Nat
  missing : Nat
  least : Nat
  greatest : Nat
  deriving DecidableEq, Repr

/-- What the first byte of a character starts: a finished character, a pending one, or nothing.
The bounds on the second byte keep out overlong forms, surrogates and numbers past the last code
point. -/
def start? (byte : Nat) : Option (Char ⊕ Pending) :=
  if byte < 0x80 then some (.inl (Char.ofNat byte))
  else if byte < 0xC2 then none
  else if byte < 0xE0 then some (.inr ⟨byte - 0xC0, 1, 0x80, 0xBF⟩)
  else if byte = 0xE0 then some (.inr ⟨0, 2, 0xA0, 0xBF⟩)
  else if byte = 0xED then some (.inr ⟨0xD, 2, 0x80, 0x9F⟩)
  else if byte < 0xF0 then some (.inr ⟨byte - 0xE0, 2, 0x80, 0xBF⟩)
  else if byte = 0xF0 then some (.inr ⟨0, 3, 0x90, 0xBF⟩)
  else if byte < 0xF4 then some (.inr ⟨byte - 0xF0, 3, 0x80, 0xBF⟩)
  else if byte = 0xF4 then some (.inr ⟨4, 3, 0x80, 0x8F⟩)
  else none

/-- The character that stands for bytes that are none. -/
def replacement : Char := Char.ofNat 0xFFFD

/-- What a byte between characters gives: characters that are finished and the one that begins. -/
def fresh (byte : Nat) : List Char × Option Pending :=
  match start? byte with
  | some (.inl c) => ([c], none)
  | some (.inr pending) => ([], some pending)
  | none => ([replacement], none)

/-- What a byte gives when `pending` has begun, if anything has. A byte that does not continue it
is looked at again as a first byte. -/
def step (pending : Option Pending) (byte : Nat) : List Char × Option Pending :=
  match pending with
  | none => fresh byte
  | some p =>
    if p.least ≤ byte ∧ byte ≤ p.greatest then
      let bits := p.bits * 64 + (byte - 0x80)
      if p.missing ≤ 1 then ([Char.ofNat bits], none)
      else ([], some ⟨bits, p.missing - 1, 0x80, 0xBF⟩)
    else
      let (chars, next) := fresh byte
      (replacement :: chars, next)

/-- The characters of the rest of the bytes, `pending` having begun. -/
def decodeFrom (pending : Option Pending) : List Nat → List Char
  | [] => if pending.isSome then [replacement] else []
  | byte :: rest =>
    let (chars, next) := step pending byte
    chars ++ decodeFrom next rest

/-- The text of any bytes. -/
def decode (bytes : List Nat) : String :=
  String.ofList (decodeFrom none bytes)

end Utf8

end Text

end JoinPlan
