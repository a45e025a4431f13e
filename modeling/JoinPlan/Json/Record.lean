import JoinPlan.Error
import JoinPlan.Json.Basic
import JoinPlan.Text.Quoted

/-!
# Reading records

A record is written as an object, or as an array of its fields in their declared order. Unknown
members of an object are passed over and a repeated one is an error; an array may stop early but
not run on.

When several fields cannot be read, the one that stands first in the document is reported, and a
field that is missing counts as standing after all others. So each reading of a field carries its
place, and combining two readings keeps the earlier failure.

## Main definitions

* `ReadError`: why a value cannot be read.
* `Reading`: a value, or a failure with its place. Readings combine by `<*>`.
* `Record`, `Record.ofJson`: the fields of a record, by either way of writing it.
* `Record.required`, `Record.withDefault`: the reading of one field.
-/

namespace JoinPlan

/-- Why a JSON value is not what it should be. -/
inductive ReadError where
  /-- The value has the wrong form. -/
  | malformed
  /-- A text that should name a table does not. -/
  | invalidTableRef (text : String)
  /-- A text stands where columns are selected. -/
  | invalidSelect (text : String)
  deriving DecidableEq, Repr

/-- The wording of an error, where it has one of its own. -/
def ReadError.message? : ReadError → Option String
  | malformed => none
  | invalidTableRef text => some (QueryError.invalidTableRef text).message
  | invalidSelect text =>
    some ("select must be \"*\" or a list of columns, got " ++ Text.shown text)

/-- A value that was read, or why it could not be, and at which place. -/
inductive Reading (α : Type) where
  | done (value : α)
  | failed (place : Nat) (error : ReadError)
  deriving Repr

namespace Reading

variable {α β : Type}

/-- Applies what was read to what was read; of two failures the one at the earlier place counts. -/
def apply : Reading (α → β) → Reading α → Reading β
  | .done f, .done x => .done (f x)
  | .done _, .failed place error => .failed place error
  | .failed place error, .done _ => .failed place error
  | .failed p e, .failed q d => if p ≤ q then .failed p e else .failed q d

/-- Changes what was read. -/
def map (f : α → β) : Reading α → Reading β
  | .done x => .done (f x)
  | .failed place error => .failed place error

instance : Functor Reading where
  map := Reading.map

instance : Seq Reading where
  seq f x := apply f (x ())

/-- The reading without its place. -/
def finish : Reading α → Except ReadError α
  | .done x => .ok x
  | .failed _ error => .error error

@[simp] theorem map_done (f : α → β) (x : α) : f <$> Reading.done x = .done (f x) := rfl

@[simp] theorem seq_done (f : α → β) (x : α) : Reading.done f <*> Reading.done x = .done (f x) :=
  rfl

@[simp] theorem finish_done (x : α) : (Reading.done x).finish = .ok x := rfl

theorem finish_eq_ok {r : Reading α} {x : α} : r.finish = .ok x ↔ r = .done x := by
  cases r <;> simp [finish]

theorem map_eq_done {f : α → β} {r : Reading α} {y : β} :
    f <$> r = .done y ↔ ∃ x, r = .done x ∧ f x = y := by
  cases r with
  | done x => simp
  | failed p e => simp [Functor.map, map]

theorem seq_eq_done {f : Reading (α → β)} {r : Reading α} {y : β} :
    f <*> r = .done y ↔ ∃ g x, f = .done g ∧ r = .done x ∧ g x = y := by
  cases f with
  | done g =>
    cases r with
    | done x => simp
    | failed p e => simp [Seq.seq, apply]
  | failed p e =>
    cases r with
    | done x => simp [Seq.seq, apply]
    | failed q d =>
      simp only [Seq.seq, apply]
      split <;> simp

end Reading

/-- The fields of a record that were found, in the order of the document. -/
structure Record where
  fields : Json.Members

namespace Record

variable {α : Type}

/-- The fields of a record: the known members of an object, or the items of an array as the
declared fields in their order. -/
def ofJson (names : List String) : Json → Except ReadError Record
  | .obj members =>
    let known := members.filter fun member => names.contains member.1
    if (Json.Members.names known).Nodup then .ok ⟨known⟩ else .error .malformed
  | .arr items => .ok ⟨names.zip items⟩
  | _ => .error .malformed

/-- An array that has more items than the record has fields. -/
def overruns (names : List String) : Json → Bool
  | .arr items => names.length < items.length
  | _ => false

/-- The place and value of a field. -/
def find? (record : Record) (name : String) : Option (Nat × Json) :=
  go 0 record.fields
where
  /-- The field among those from a place on. -/
  go (place : Nat) : Json.Members → Option (Nat × Json)
    | [] => none
    | (key, value) :: rest => if key = name then some (place, value) else go (place + 1) rest

/-- What was read at a place. -/
def tagged (place : Nat) : Except ReadError α → Reading α
  | .ok value => .done value
  | .error error => .failed place error

/-- The reading of a field that must be there. -/
def required (record : Record) (name : String) (read : Json → Except ReadError α) : Reading α :=
  match record.find? name with
  | some (place, value) => tagged place (read value)
  | none => .failed record.fields.length .malformed

/-- The reading of a field that has a default. -/
def withDefault (record : Record) (name : String) (default : α)
    (read : Json → Except ReadError α) : Reading α :=
  match record.find? name with
  | some (place, value) => tagged place (read value)
  | none => .done default

/-- Reads a record with the given fields. Items past the last field are noticed after all
fields have been read. -/
def read (names : List String) (value : Json) (fields : Record → Reading α) :
    Except ReadError α := do
  let record ← ofJson names value
  let result ← (fields record).finish
  if overruns names value then throw .malformed else return result

end Record

/-! ### Reading single values -/

namespace Json

variable {α : Type}

/-- The value that a look into it finds. -/
def expect (look : Json → Option α) (value : Json) : Except ReadError α :=
  match look value with
  | some found => .ok found
  | none => .error .malformed

/-- A text. -/
def readString : Json → Except ReadError String :=
  expect str?

/-- A truth value. -/
def readBool : Json → Except ReadError Bool :=
  expect bool?

/-- A whole number from zero to a bound. -/
def readNat (bound : Nat) : Json → Except ReadError Nat :=
  expect (nat? bound)

/-- Any number. -/
def readFloat : Json → Except ReadError Float :=
  expect float?

/-- An array whose items are all read alike; the first item that fails is reported. -/
def readList (read : Json → Except ReadError α) : Json → Except ReadError (List α)
  | .arr items => items.mapM read
  | _ => .error .malformed

/-- A value that may be null. -/
def readOption (read : Json → Except ReadError α) : Json → Except ReadError (Option α)
  | .null => .ok none
  | value => (read value).map some

/-- One of a set of words, written as a text or as the only member of an object, with null as its
value. -/
def word? (ofWord? : String → Option α) : Json → Option α
  | .str word => ofWord? word
  | .obj [(word, .null)] => ofWord? word
  | _ => none

/-- One of a set of words. -/
def readWord (ofWord? : String → Option α) : Json → Except ReadError α :=
  expect (word? ofWord?)

/-- A reference to a table. -/
def readTableRef : Json → Except ReadError TableRef
  | .str text =>
    match TableRef.parse? text with
    | some ref => .ok ref
    | none => .error (.invalidTableRef text)
  | _ => .error .malformed

end Json

end JoinPlan
