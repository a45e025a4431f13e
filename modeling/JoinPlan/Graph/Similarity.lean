import JoinPlan.Text.Blank

/-!
# How alike two names are

Two names are alike as far as they share pairs of neighbouring characters: twice the number of
shared pairs over the number of all pairs, the Sørensen–Dice coefficient. Blanks do not count.

The pairs of one name are counted, and each pair of the other uses up one of its kind if there is
one left.

## Main definitions

* `pairs`: the pairs of neighbouring characters, with repetitions.
* `Tally`, `Tally.add`, `Tally.take?`: how many of each pair are left to be shared.
* `Matching`, `sharedCount`: how many pairs two lists have in common, each used once.
* `Overlap`, `overlap`: the coefficient as a fraction, before rounding.
* `Likeness`, `likeness`: how two names compare. Equal names are fully alike, and a name of one
  character is like no other.
* `nameSimilarity`: their likeness as a double.

## Implementation notes

Shared pairs are counted one by one in a signed word of 32 bits, and here in the natural numbers.
The two counts agree as long as fewer than `2 ^ 31` pairs are shared. Neither name has fewer pairs
than are shared, so they agree whenever one of the names has at most `2 ^ 31` characters.
-/

namespace JoinPlan

/-- The pairs of neighbouring characters. -/
def pairs (name : List Char) : List (Char × Char) :=
  name.zip (name.drop 1)

/-! ### Pairs that two lists share -/

/-- How many of each pair are left. A pair without an entry was never there. -/
abbrev Tally := List ((Char × Char) × Nat)

namespace Tally

/-- One more of a pair. -/
def add : Tally → Char × Char → Tally
  | [], pair => [(pair, 1)]
  | (other, number) :: rest, pair =>
    if other = pair then (other, number + 1) :: rest else (other, number) :: add rest pair

/-- One less of a pair, if there is one left. -/
def take? : Tally → Char × Char → Option Tally
  | [], _ => none
  | (other, number) :: rest, pair =>
    if other = pair then
      if 0 < number then some ((other, number - 1) :: rest) else none
    else (take? rest pair).map ((other, number) :: ·)

/-- The entries of a list, counted. -/
def ofList (entries : List (Char × Char)) : Tally :=
  entries.foldl add []

end Tally

/-- How far two lists are matched. -/
structure Matching where
  /-- What is left of the first list. -/
  unused : Tally
  /-- How many entries of the second list were matched. -/
  shared : Nat
  deriving DecidableEq, Repr

/-- The next entry of the second list is matched with one of the first, if one is left. -/
def Matching.step (matching : Matching) (pair : Char × Char) : Matching :=
  match matching.unused.take? pair with
  | some unused => ⟨unused, matching.shared + 1⟩
  | none => matching

/-- How many entries of the second list can be matched with entries of the first, each of which
is used at most once. -/
def sharedCount (first second : List (Char × Char)) : Nat :=
  (second.foldl Matching.step ⟨.ofList first, 0⟩).shared

/-! ### The coefficient -/

/-- A fraction of the pairs of two names. -/
structure Overlap where
  /-- How many pairs the names share. -/
  shared : Nat
  /-- How many pairs the two names have together. -/
  total : Nat
  deriving DecidableEq, Repr

/-- The pairs that two names without blanks share, and all their pairs. -/
def overlap (a b : List Char) : Overlap :=
  ⟨sharedCount (pairs a) (pairs b), (a.length - 1) + (b.length - 1)⟩

/-- The fraction as a double: both sides are rounded before they are divided. -/
def Overlap.toFloat (o : Overlap) : Float :=
  2.0 * Float.ofNat o.shared / Float.ofNat o.total

/-- How two names compare. -/
inductive Likeness where
  /-- They are the same but for blanks. -/
  | same
  /-- They differ, and one of them has no pairs. -/
  | short
  /-- They differ, and share so many of their pairs. -/
  | sharing (o : Overlap)
  deriving DecidableEq, Repr

/-- How two names compare, whatever blanks they have. -/
def likeness (a b : String) : Likeness :=
  let a := Text.withoutBlanks a
  let b := Text.withoutBlanks b
  if a = b then .same
  else if a.length < 2 || b.length < 2 then .short
  else .sharing (overlap a b)

/-- A likeness as a double, from zero to one. -/
def Likeness.toFloat : Likeness → Float
  | same => 1.0
  | short => 0.0
  | sharing o => o.toFloat

/-- How alike two names are, from zero to one. -/
def nameSimilarity (a b : String) : Float :=
  (likeness a b).toFloat

@[simp] theorem length_pairs (name : List Char) : (pairs name).length = name.length - 1 := by
  simp [pairs]

end JoinPlan
