/-!
# JSON values

A JSON value keeps its members in the order in which they were written. A value may carry a
member twice, as a text can; `Json.collapse` settles such members the usual way, and a reader
that must refuse them looks at the value before.

## Main definitions

* `Json`: the values; `Json.Number` tells whole numbers from doubles.
* `Json.Members`: the members of an object, with `get?` and `insert`.
* `Json.collapse`: every object keeps each name once, at its first place with its last value.

## Main results

* `Members.get?_insert_self`, `Members.get?_insert_of_ne`: an insertion as seen by a look-up.
-/

namespace JoinPlan

namespace Json

/-- A number as JSON tells them apart: a whole number, or a double. -/
inductive Number where
  | int (value : Int)
  | float (value : Float)
  deriving DecidableEq, Repr

end Json

/-- A JSON value. -/
inductive Json where
  | null
  | bool (value : Bool)
  | num (value : Json.Number)
  | str (value : String)
  | arr (items : List Json)
  | obj (members : List (String × Json))
  deriving Repr, Inhabited

namespace Json

/-- The members of an object, in order. -/
abbrev Members := List (String × Json)

namespace Members

/-- The value of the first member of a name. -/
def get? (name : String) : Members → Option Json
  | [] => none
  | (key, value) :: rest => if key = name then some value else get? name rest

/-- Gives a name a value: in place if the name is there, at the end otherwise. -/
def insert (name : String) (value : Json) : Members → Members
  | [] => [(name, value)]
  | (key, old) :: rest =>
    if key = name then (key, value) :: rest else (key, old) :: insert name value rest

/-- The names, in order. -/
def names (members : Members) : List String :=
  members.map (·.1)

/-- The members with each name once, at its first place and with its last value. -/
def ofPairs (pairs : Members) : Members :=
  pairs.foldl (fun members pair => insert pair.1 pair.2 members) []

@[simp] theorem get?_insert_self (name : String) (value : Json) (members : Members) :
    get? name (insert name value members) = some value := by
  induction members with
  | nil => simp [insert, get?]
  | cons pair rest ih =>
    obtain ⟨key, old⟩ := pair
    by_cases h : key = name <;> simp [insert, get?, h, ih]

theorem get?_insert_of_ne {name other : String} (h : other ≠ name) (value : Json)
    (members : Members) : get? other (insert name value members) = get? other members := by
  induction members with
  | nil => simp [insert, get?, Ne.symm h]
  | cons pair rest ih =>
    obtain ⟨key, old⟩ := pair
    by_cases hk : key = name
    · subst hk
      simp [insert, get?, Ne.symm h]
    · by_cases ho : key = other
      · subst ho
        simp [insert, get?, hk]
      · simp [insert, get?, hk, ho, ih]

end Members

mutual

/-- The value with no name repeated in any object: each keeps its first place and its last
value. -/
def collapse : Json → Json
  | .arr items => .arr (collapseItems items)
  | .obj members => .obj (Members.ofPairs (collapseMembers members))
  | other => other

/-- The items, each collapsed. -/
def collapseItems : List Json → List Json
  | [] => []
  | item :: rest => item.collapse :: collapseItems rest

/-- The members, the value of each collapsed. -/
def collapseMembers : List (String × Json) → List (String × Json)
  | [] => []
  | (name, value) :: rest => (name, value.collapse) :: collapseMembers rest

end

/-! ### Looking into a value -/

/-- The text, if the value is one. -/
def str? : Json → Option String
  | .str value => some value
  | _ => none

/-- The truth value, if the value is one. -/
def bool? : Json → Option Bool
  | .bool value => some value
  | _ => none

/-- The items, if the value is an array. -/
def arr? : Json → Option (List Json)
  | .arr items => some items
  | _ => none

/-- The members, if the value is an object. -/
def obj? : Json → Option Members
  | .obj members => some members
  | _ => none

/-- The value of the member `name`, if the value is an object that has one. -/
def member? (value : Json) (name : String) : Option Json :=
  value.obj?.bind (Members.get? name)

/-- A whole number that is not negative and at most `bound`. -/
def nat? (bound : Nat) : Json → Option Nat
  | .num (.int value) => if 0 ≤ value ∧ value ≤ bound then some value.toNat else none
  | _ => none

/-- Any number, as a double. -/
def float? : Json → Option Float
  | .num (.int value) => some (Float.ofInt value)
  | .num (.float value) => some value
  | _ => none

/-! ### Making values -/

/-- A whole number. -/
def ofNat (value : Nat) : Json :=
  .num (.int value)

/-- An array of texts. -/
def ofStrings (texts : List String) : Json :=
  .arr (texts.map .str)

/-- What `encode` makes of the value, or null where there is none. -/
def ofOption {α : Type} (encode : α → Json) : Option α → Json
  | some value => encode value
  | none => .null

@[simp] theorem str?_str (value : String) : (Json.str value).str? = some value := rfl

@[simp] theorem nat?_ofNat {bound value : Nat} (h : value ≤ bound) :
    (ofNat value).nat? bound = some value := by
  simp [ofNat, nat?, h]

end Json

end JoinPlan
