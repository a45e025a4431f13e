/-!
# A binary heap in an array

The least item stands first, and the items at `2 i + 1` and `2 i + 2` are not less than the one at
`i`. Which of several least items comes out first is part of the contract: an item that is taken
out is replaced by the last one, which first sinks to the bottom along the lesser children, the
right one if they are level, and then rises again.

## Main definitions

* `Heap.push`, `Heap.pop?`: putting an item in, and taking the first out.
* `Heap.siftUp`, `Heap.sinkToBottom`: the two repairs.

The comparison `lt` is a parameter; the array is the only state.
-/

namespace JoinPlan

namespace Heap

variable {α : Type}

/-- Lets the item at a position rise while it is less than its parent. Every step goes to a
smaller position, so a bound of the position itself on the steps suffices. -/
def siftUp (lt : α → α → Bool) : Nat → Array α → Nat → Array α
  | 0, items, _ => items
  | steps + 1, items, pos =>
    let parent := (pos - 1) / 2
    match items[pos]?, items[parent]? with
    | some item, some above =>
      if lt item above then siftUp lt steps (items.swapIfInBounds pos parent) parent else items
    | _, _ => items

/-- The child to move up from below a position: the right one unless the left one is less. -/
def lesserChild? (lt : α → α → Bool) (items : Array α) (pos : Nat) : Option Nat :=
  match items[2 * pos + 1]?, items[2 * pos + 2]? with
  | some left, some right => some (if lt left right then 2 * pos + 1 else 2 * pos + 2)
  | some _, none => some (2 * pos + 1)
  | none, _ => none

/-- Lets the item at a position sink below its lesser child until it has none, whatever the item
is; tells where it ends. Every step goes to a greater position, so the size of the array bounds
the steps. -/
def sinkToBottom (lt : α → α → Bool) : Nat → Array α → Nat → Array α × Nat
  | 0, items, pos => (items, pos)
  | steps + 1, items, pos =>
    match lesserChild? lt items pos with
    | some child => sinkToBottom lt steps (items.swapIfInBounds pos child) child
    | none => (items, pos)

/-- Puts an item in. -/
def push (lt : α → α → Bool) (items : Array α) (item : α) : Array α :=
  siftUp lt items.size (items.push item) items.size

/-- Takes a least item out, if there is any. -/
def pop? (lt : α → α → Bool) (items : Array α) : Option (α × Array α) :=
  match items[0]?, items.back? with
  | some first, some last =>
    let rest := items.pop
    if rest.isEmpty then some (first, rest)
    else
      let (sunk, pos) := sinkToBottom lt rest.size (rest.setIfInBounds 0 last) 0
      some (first, siftUp lt pos sunk pos)
  | _, _ => none

@[simp] theorem size_siftUp (lt : α → α → Bool) (steps : Nat) (items : Array α) (pos : Nat) :
    (siftUp lt steps items pos).size = items.size := by
  induction steps generalizing items pos with
  | zero => rfl
  | succ steps ih =>
    simp only [siftUp]
    split
    · split
      · rw [ih, Array.size_swapIfInBounds]
      · rfl
    · rfl

@[simp] theorem size_sinkToBottom (lt : α → α → Bool) (steps : Nat) (items : Array α)
    (pos : Nat) : (sinkToBottom lt steps items pos).1.size = items.size := by
  induction steps generalizing items pos with
  | zero => rfl
  | succ steps ih =>
    simp only [sinkToBottom]
    split
    · rw [ih, Array.size_swapIfInBounds]
    · rfl

@[simp] theorem size_push (lt : α → α → Bool) (items : Array α) (item : α) :
    (push lt items item).size = items.size + 1 := by
  simp [push]

/-- Taking an item out leaves one item less. -/
theorem size_of_pop? {lt : α → α → Bool} {items rest : Array α} {item : α}
    (h : pop? lt items = some (item, rest)) : rest.size + 1 = items.size := by
  unfold pop? at h
  split at h
  · rename_i first last hf hl
    have hpos : 0 < items.size := by
      rw [Array.getElem?_eq_some_iff] at hf
      exact hf.1
    dsimp only at h
    split at h
    · cases h
      simp
      omega
    · cases h
      simp
      omega
  · cases h

end Heap

end JoinPlan
