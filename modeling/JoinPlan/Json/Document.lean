import JoinPlan.Json.Token

/-!
# JSON texts and what is read of them

A JSON text is first checked for its grammar alone, which gives a `Document`. Reading turns a
document into a value. A reader may leave members out; what it leaves out only has to be
grammatical, while what it reads must also have a value: numbers within the doubles, whole
surrogate pairs, and fewer than 128 arrays and objects inside one another.

## Main definitions

* `Json.Document`, `Json.Document.parse?`: the syntax of a text.
* `Json.View`: which members of which objects a reader looks at.
* `Json.Document.read?`: the value of the parts that are looked at.
* `Json.parse?`: the whole value of a text.
-/

namespace JoinPlan

namespace Json

/-- The syntax of a JSON text. Numbers and texts that have no value are kept as absent. -/
inductive Document where
  | null
  | bool (value : Bool)
  | num (value : Option Number)
  | str (text : Option String)
  | arr (items : List Document)
  | obj (members : List (Option String × Document))
  deriving Inhabited

namespace Document

mutual

/-- The document that tokens start with, and the tokens after it. Every call takes a token or
belongs to one, so `fuel` of twice the number of tokens suffices. -/
def value? : Nat → List Token → Option (Document × List Token)
  | 0, _ => none
  | fuel + 1, tokens =>
    match tokens with
    | .null :: rest => some (.null, rest)
    | .bool b :: rest => some (.bool b, rest)
    | .num l :: rest => some (.num l.number?, rest)
    | .str s :: rest => some (.str s, rest)
    | .openBracket :: .closeBracket :: rest => some (.arr [], rest)
    | .openBracket :: rest => items? fuel [] rest
    | .openBrace :: .closeBrace :: rest => some (.obj [], rest)
    | .openBrace :: rest => members? fuel [] rest
    | _ => none

/-- The items up to the closing bracket, after those in `acc`, which has the last one first. -/
def items? : Nat → List Document → List Token → Option (Document × List Token)
  | 0, _, _ => none
  | fuel + 1, acc, tokens =>
    match value? fuel tokens with
    | some (item, .comma :: rest) => items? fuel (item :: acc) rest
    | some (item, .closeBracket :: rest) => some (.arr (item :: acc).reverse, rest)
    | _ => none

/-- The members up to the closing brace, after those in `acc`, which has the last one first. -/
def members? : Nat → List (Option String × Document) → List Token →
    Option (Document × List Token)
  | 0, _, _ => none
  | fuel + 1, acc, tokens =>
    match tokens with
    | .str key :: .colon :: rest =>
      match value? fuel rest with
      | some (value, .comma :: rest) => members? fuel ((key, value) :: acc) rest
      | some (value, .closeBrace :: rest) => some (.obj ((key, value) :: acc).reverse, rest)
      | _ => none
    | _ => none

end

/-- The document that a text is, with nothing after it. -/
def parse? (text : String) : Option Document := do
  let tokens ← tokens? text
  match value? (2 * tokens.length) tokens with
  | some (document, []) => some document
  | _ => none

end Document

/-- Which parts of a document a reader looks at. The reader is in some state at each array or
object and moves to another one inside; where it does not move, the part is passed over. -/
structure View (σ : Type) where
  /-- The state inside a member of an object. -/
  member : σ → String → Option σ
  /-- The state inside an item of an array, by position. -/
  item : σ → Nat → Option σ

/-- The view of a reader that looks at everything. -/
def View.whole : View Unit :=
  ⟨fun _ _ => some (), fun _ _ => some ()⟩

/-- Arrays and objects may be nested up to this depth. -/
def maxDepth : Nat := 127

namespace Document

variable {σ : Type}

mutual

/-- The value of the parts that a view looks at, with at most `depth` arrays and objects inside
one another. Members that are passed over are left out; items that are passed over are null. -/
def read? (view : View σ) (depth : Nat) (state : σ) : Document → Option Json
  | .null => some .null
  | .bool b => some (.bool b)
  | .num n => n.map .num
  | .str s => s.map .str
  | .arr items =>
    match depth with
    | 0 => none
    | depth + 1 => (readItems? view depth state 0 items).map .arr
  | .obj members =>
    match depth with
    | 0 => none
    | depth + 1 => (readMembers? view depth state members).map .obj

/-- The items from position `index` on. -/
def readItems? (view : View σ) (depth : Nat) (state : σ) (index : Nat) :
    List Document → Option (List Json)
  | [] => some []
  | item :: rest => do
    let value ← match view.item state index with
      | some inside => read? view depth inside item
      | none => some .null
    let values ← readItems? view depth state (index + 1) rest
    return value :: values

/-- The members that are looked at. Every name is read, also of a member that is passed over. -/
def readMembers? (view : View σ) (depth : Nat) (state : σ) :
    List (Option String × Document) → Option (List (String × Json))
  | [] => some []
  | (key, document) :: rest => do
    let name ← key
    match view.member state name with
    | some inside =>
      let value ← read? view depth inside document
      let values ← readMembers? view depth state rest
      return (name, value) :: values
    | none => readMembers? view depth state rest

end

end Document

/-- The value of a text, in which an object may still repeat a name. -/
def parse? (text : String) : Option Json :=
  (Document.parse? text).bind (Document.read? View.whole maxDepth ())

end Json

end JoinPlan
