import JoinPlan.Graph.Heap
import Mathlib.Data.List.Induction

/-!
# The heap is in order

Pushing and popping keep the items together and in order, so what is popped comes first.

The comparison of a heap need not be the order one is interested in. `Follows lt le` asks for less:
`le` is a preorder that the comparison never contradicts. A comparison that decides by one key
first and breaks ties in any way whatever follows the order by that key. Nothing is asked of the
ties, so the lemmas here hold of a comparison that is not even transitive on them.

## Main definitions

* `Heap.Follows`: the comparison never contradicts the order.
* `Heap.Ordered`: every item comes after the one above it.
* `Heap.Rising`, `Heap.Sinking`: the order while one item is out of place.

## Main results

* `Heap.ordered_push`, `Heap.ordered_of_pop?`: the order is kept.
* `Heap.perm_push`, `Heap.perm_of_pop?`: no item is lost or made up.
* `Heap.le_of_pop?`: the item that is popped comes before all others.
-/

namespace JoinPlan

namespace Heap

variable {α : Type}

/-- A preorder that a comparison never contradicts. -/
structure Follows (lt : α → α → Bool) (le : α → α → Prop) : Prop where
  trans : ∀ {a b c}, le a b → le b c → le a c
  of_lt : ∀ {a b}, lt a b = true → le a b
  of_not_lt : ∀ {a b}, lt a b = false → le b a

theorem Follows.refl {lt : α → α → Bool} {le : α → α → Prop} (h : Follows lt le) (a : α) :
    le a a := by
  cases hlt : lt a a with
  | true => exact h.of_lt hlt
  | false => exact h.of_not_lt hlt

/-- The item at the first position, if both are there, comes before the one at the second. -/
def InOrder (le : α → α → Prop) (items : Array α) (i j : Nat) : Prop :=
  ∀ a b, items[i]? = some a → items[j]? = some b → le a b

/-- Every item comes after the one above it. -/
def Ordered (le : α → α → Prop) (items : Array α) : Prop :=
  ∀ i, 0 < i → InOrder le items ((i - 1) / 2) i

theorem ordered_singleton (le : α → α → Prop) (item : α) : Ordered le #[item] := by
  intro i h0 a b _ hb
  have hi := (Array.getElem?_eq_some_iff.mp hb).1
  simp only [List.size_toArray, List.length_singleton] at hi
  omega

/-- The items are in order but for one that may belong further up. What lies below it comes after
what lies above it. -/
structure Rising (le : α → α → Prop) (items : Array α) (pos : Nat) : Prop where
  others : ∀ i, 0 < i → i ≠ pos → InOrder le items ((i - 1) / 2) i
  across : ∀ i, 0 < pos → 0 < i → (i - 1) / 2 = pos → InOrder le items ((pos - 1) / 2) i

/-- The items are in order but for one that may belong anywhere. What lies below it comes after
what lies above it. -/
structure Sinking (le : α → α → Prop) (items : Array α) (pos : Nat) : Prop where
  others : ∀ i, 0 < i → i ≠ pos → (i - 1) / 2 ≠ pos → InOrder le items ((i - 1) / 2) i
  across : ∀ i, 0 < pos → 0 < i → (i - 1) / 2 = pos → InOrder le items ((pos - 1) / 2) i

/-! ### Exchanging two items -/

theorem getElem?_swap {items : Array α} {i j : Nat} (hi : i < items.size) (hj : j < items.size)
    (k : Nat) : (items.swapIfInBounds i j)[k]? =
      if k = i then items[j]? else if k = j then items[i]? else items[k]? := by
  by_cases hk : k < items.size
  · have hk' : k < (items.swapIfInBounds i j).size := by simpa using hk
    rw [Array.getElem?_eq_getElem hk', Array.getElem_swapIfInBounds hk']
    grind
  · have hki : k ≠ i := by omega
    have hkj : k ≠ j := by omega
    simp [hki, hkj, Nat.le_of_not_lt hk]

theorem perm_swap (items : Array α) (i j : Nat) : (items.swapIfInBounds i j).Perm items := by
  rw [Array.swapIfInBounds]
  split
  · split
    · exact Array.swap_perm _ _
    · exact Array.Perm.rfl
  · exact Array.Perm.rfl

/-! ### Rising -/

/-- An item that is less than the one above it changes places with it. -/
theorem Rising.swap {lt : α → α → Bool} {le : α → α → Prop} (hle : Follows lt le)
    {items : Array α} {pos : Nat} (h : Rising le items pos) {item above : α} (hpos : 0 < pos)
    (hi : items[pos]? = some item) (ha : items[(pos - 1) / 2]? = some above)
    (hlt : lt item above = true) :
    Rising le (items.swapIfInBounds pos ((pos - 1) / 2)) ((pos - 1) / 2) := by
  have hsize : pos < items.size := (Array.getElem?_eq_some_iff.mp hi).1
  have hswap := getElem?_swap hsize (show (pos - 1) / 2 < items.size by omega)
  constructor
  · intro i h0 hne a b
    rw [hswap, hswap, if_neg hne]
    by_cases hip : i = pos
    · -- the pair that was out of order
      subst hip
      rw [if_neg (by omega), if_pos rfl, if_pos rfl, hi, ha]
      rintro ⟨⟩ ⟨⟩
      exact hle.of_lt hlt
    · rw [if_neg hip]
      by_cases hup : (i - 1) / 2 = pos
      · rw [if_pos hup]
        exact h.across i hpos h0 hup a b
      · rw [if_neg hup]
        by_cases hsib : (i - 1) / 2 = (pos - 1) / 2
        · -- the other child of the place above
          rw [if_pos hsib, hi]
          rintro ⟨⟩ hb
          have hab := h.others i h0 hip above b (by rw [hsib, ha]) hb
          exact hle.trans (hle.of_lt hlt) hab
        · rw [if_neg hsib]
          exact h.others i h0 hip a b
  · intro i hup0 h0 hup a b
    rw [hswap, hswap, if_neg (by omega), if_neg (by omega)]
    intro hgrand
    have hab := h.others ((pos - 1) / 2) hup0 (by omega) a above hgrand ha
    by_cases hip : i = pos
    · subst hip
      rw [if_pos rfl, ha]
      rintro ⟨⟩
      exact hab
    · rw [if_neg hip, if_neg (by omega)]
      intro hb
      exact hle.trans hab (h.others i h0 hip above b (by rw [hup, ha]) hb)

/-- An item that is not less than the one above it stays where it is. -/
theorem Rising.stop {le : α → α → Prop} {items : Array α} {pos : Nat} (h : Rising le items pos)
    (hpos : 0 < pos → InOrder le items ((pos - 1) / 2) pos) : Ordered le items := by
  intro i h0
  by_cases hip : i = pos
  · subst hip
    exact hpos h0
  · exact h.others i h0 hip

theorem ordered_siftUp {lt : α → α → Bool} {le : α → α → Prop} (hle : Follows lt le)
    {steps : Nat} {items : Array α} {pos : Nat} (hsteps : pos ≤ steps) (h : Rising le items pos) :
    Ordered le (siftUp lt steps items pos) := by
  induction steps generalizing items pos with
  | zero => exact h.stop fun h0 => by omega
  | succ steps ih =>
    rw [siftUp]
    split
    · rename_i item above hi ha
      split
      · rename_i hlt
        rcases Nat.eq_zero_or_pos pos with rfl | hpos
        · refine ih (Nat.zero_le _) ?_
          have hsize : 0 < items.size := (Array.getElem?_eq_some_iff.mp hi).1
          have hsame : items.swapIfInBounds 0 0 = items := by
            refine Array.ext_getElem? fun k => ?_
            rw [getElem?_swap hsize hsize]
            split <;> simp_all
          simpa [hsame] using h
        · exact ih (by omega) (h.swap hle hpos hi ha hlt)
      · rename_i hlt
        refine h.stop fun _ a b hb hc => ?_
        rw [ha] at hb
        rw [hi] at hc
        cases hb
        cases hc
        exact hle.of_not_lt (by simpa using hlt)
    · rename_i hnone
      refine h.stop fun _ a b hb hc => ?_
      exact absurd hb (hnone b a hc)

/-! ### Sinking -/

/-- The lesser child is a child, and comes before the other one. -/
theorem lesserChild?_eq_some {lt : α → α → Bool} {le : α → α → Prop} (hle : Follows lt le)
    {items : Array α} {pos child : Nat} (h : lesserChild? lt items pos = some child) :
    0 < child ∧ (child - 1) / 2 = pos ∧ child < items.size ∧
      ∀ i, 0 < i → (i - 1) / 2 = pos → InOrder le items child i := by
  rw [lesserChild?] at h
  split at h
  · rename_i left right hl hr
    have hsize : 2 * pos + 2 < items.size := (Array.getElem?_eq_some_iff.mp hr).1
    cases h
    refine ⟨by split <;> omega, by split <;> omega, by split <;> omega, ?_⟩
    intro i h0 hup a b ha hb
    have hi : i = 2 * pos + 1 ∨ i = 2 * pos + 2 := by omega
    cases hlt : lt left right with
    | true =>
      rw [hlt, if_pos rfl, hl] at ha
      cases ha
      rcases hi with rfl | rfl
      · rw [hl] at hb
        cases hb
        exact hle.refl _
      · rw [hr] at hb
        cases hb
        exact hle.of_lt hlt
    | false =>
      rw [hlt, if_neg (by simp), hr] at ha
      cases ha
      rcases hi with rfl | rfl
      · rw [hl] at hb
        cases hb
        exact hle.of_not_lt hlt
      · rw [hr] at hb
        cases hb
        exact hle.refl _
  · rename_i left hl hr
    have hsize : 2 * pos + 1 < items.size := (Array.getElem?_eq_some_iff.mp hl).1
    cases h
    refine ⟨by omega, by omega, hsize, ?_⟩
    intro i h0 hup a b ha hb
    have hi : i = 2 * pos + 1 ∨ i = 2 * pos + 2 := by omega
    rcases hi with rfl | rfl
    · rw [ha] at hb
      cases hb
      exact hle.refl _
    · rw [hr] at hb
      cases hb
  · cases h

/-- Where there is no lesser child there is no child. -/
theorem getElem?_eq_none_of_lesserChild? {lt : α → α → Bool} {items : Array α} {pos i : Nat}
    (h : lesserChild? lt items pos = none) (h0 : 0 < i) (hup : (i - 1) / 2 = pos) :
    items[i]? = none := by
  rw [lesserChild?] at h
  split at h
  · cases h
  · cases h
  · rename_i hl
    rw [Array.getElem?_eq_none_iff] at hl ⊢
    omega

/-- The lesser child comes up, and the item out of place goes down. -/
theorem Sinking.swap {lt : α → α → Bool} {le : α → α → Prop} (hle : Follows lt le)
    {items : Array α} {pos child : Nat} (h : Sinking le items pos)
    (hc : lesserChild? lt items pos = some child) :
    Sinking le (items.swapIfInBounds pos child) child := by
  obtain ⟨hc0, hup, hsize, hleast⟩ := lesserChild?_eq_some hle hc
  have hswap := getElem?_swap (show pos < items.size by omega) hsize
  constructor
  · intro i h0 hne hnup a b
    rw [hswap, hswap, if_neg hnup, if_neg hne]
    by_cases hip : i = pos
    · subst hip
      rw [if_neg (by omega), if_pos rfl]
      exact h.across child h0 hc0 hup a b
    · rw [if_neg hip]
      by_cases hiup : (i - 1) / 2 = pos
      · rw [if_pos hiup]
        exact hleast i h0 hiup a b
      · rw [if_neg hiup]
        exact h.others i h0 hip hiup a b
  · intro i _ h0 hiup a b
    rw [hup, hswap, hswap, if_pos rfl, if_neg (by omega), if_neg (by omega), ← hiup]
    exact h.others i h0 (by omega) (by omega) a b

theorem Sinking.bottom {lt : α → α → Bool} {le : α → α → Prop} {items : Array α} {pos : Nat}
    (h : Sinking le items pos) (hc : lesserChild? lt items pos = none) : Rising le items pos := by
  constructor
  · intro i h0 hne a b
    by_cases hup : (i - 1) / 2 = pos
    · rw [getElem?_eq_none_of_lesserChild? hc h0 hup]
      rintro _ ⟨⟩
    · exact h.others i h0 hne hup a b
  · intro i _ h0 hup a b
    rw [getElem?_eq_none_of_lesserChild? hc h0 hup]
    rintro _ ⟨⟩

theorem rising_sinkToBottom {lt : α → α → Bool} {le : α → α → Prop} (hle : Follows lt le)
    {steps : Nat} {items : Array α} {pos : Nat} (hsteps : items.size ≤ pos + steps)
    (h : Sinking le items pos) :
    Rising le (sinkToBottom lt steps items pos).1 (sinkToBottom lt steps items pos).2 := by
  induction steps generalizing items pos with
  | zero =>
    have hnone : lesserChild? lt items pos = none := by
      cases hc : lesserChild? lt items pos with
      | none => rfl
      | some child =>
        obtain ⟨_, _, _, _⟩ := lesserChild?_eq_some hle hc
        omega
    exact h.bottom hnone
  | succ steps ih =>
    rw [sinkToBottom]
    split
    · rename_i child hc
      obtain ⟨hc0, hup, _, _⟩ := lesserChild?_eq_some hle hc
      refine ih ?_ (h.swap hle hc)
      rw [Array.size_swapIfInBounds]
      omega
    · rename_i hc
      exact h.bottom hc

/-! ### Pushing and popping -/

theorem perm_siftUp (lt : α → α → Bool) (steps : Nat) (items : Array α) (pos : Nat) :
    (siftUp lt steps items pos).Perm items := by
  induction steps generalizing items pos with
  | zero => exact Array.Perm.rfl
  | succ steps ih =>
    rw [siftUp]
    split
    · split
      · exact (ih _ _).trans (perm_swap _ _ _)
      · exact Array.Perm.rfl
    · exact Array.Perm.rfl

theorem perm_sinkToBottom (lt : α → α → Bool) (steps : Nat) (items : Array α) (pos : Nat) :
    (sinkToBottom lt steps items pos).1.Perm items := by
  induction steps generalizing items pos with
  | zero => exact Array.Perm.rfl
  | succ steps ih =>
    rw [sinkToBottom]
    split
    · exact (ih _ _).trans (perm_swap _ _ _)
    · exact Array.Perm.rfl

theorem perm_push (lt : α → α → Bool) (items : Array α) (item : α) :
    (push lt items item).Perm (items.push item) :=
  perm_siftUp lt _ _ _

theorem mem_push (lt : α → α → Bool) {items : Array α} {item x : α} :
    x ∈ push lt items item ↔ x ∈ items ∨ x = item := by
  rw [(perm_push lt items item).mem_iff, Array.mem_push]

theorem ordered_push {lt : α → α → Bool} {le : α → α → Prop} (hle : Follows lt le)
    {items : Array α} (h : Ordered le items) (item : α) : Ordered le (push lt items item) := by
  refine ordered_siftUp hle (Nat.le_refl _) ⟨fun i h0 hne a b ha hb => ?_, fun i _ h0 hup => ?_⟩
  · have hi : i < (items.push item).size := (Array.getElem?_eq_some_iff.mp hb).1
    rw [Array.size_push] at hi
    rw [Array.getElem?_push, if_neg (by omega)] at ha hb
    exact h i h0 a b ha hb
  · intro a b _ hb
    have hi : i < (items.push item).size := (Array.getElem?_eq_some_iff.mp hb).1
    rw [Array.size_push] at hi
    omega

/-- The last item takes the place of the one that is popped, sinks and rises. A lone item leaves
nothing behind. -/
theorem pop?_cases {lt : α → α → Bool} {items rest : Array α} {item : α}
    (h : pop? lt items = some (item, rest)) :
    (items = #[item] ∧ rest = #[]) ∨
      ∃ (tail : List α) (last : α) (sunk : Array α) (pos : Nat),
        items = (item :: tail ++ [last]).toArray ∧
        sinkToBottom lt (tail.length + 1) (last :: tail).toArray 0 = (sunk, pos) ∧
        rest = siftUp lt pos sunk pos := by
  obtain ⟨list⟩ := items
  cases list using List.reverseRecOn with
  | nil => simp [pop?] at h
  | append_singleton front last =>
    have hpush : (⟨front ++ [last]⟩ : Array α) = front.toArray.push last := by simp
    rw [hpush] at h ⊢
    cases front with
    | nil =>
      simp only [pop?, Array.getElem?_push, Array.back?_push, Array.pop_push] at h
      simp at h
      simp [h]
    | cons head tail =>
      simp only [pop?, Array.getElem?_push, Array.back?_push, Array.pop_push] at h
      simp at h
      obtain ⟨rfl, rfl⟩ := h
      exact .inr ⟨tail, last, _, _, by simp, rfl, rfl⟩

/-- The item that is popped and those that are left are the items there were. -/
theorem perm_of_pop? {lt : α → α → Bool} {items rest : Array α} {item : α}
    (h : pop? lt items = some (item, rest)) : items.toList.Perm (item :: rest.toList) := by
  rcases pop?_cases h with ⟨rfl, rfl⟩ | ⟨tail, last, sunk, pos, rfl, hsink, rfl⟩
  · exact List.Perm.refl _
  · have hsunk : sunk.Perm (last :: tail).toArray := by
      have := perm_sinkToBottom lt (tail.length + 1) (last :: tail).toArray 0
      rwa [hsink] at this
    have hrest : (siftUp lt pos sunk pos).toList.Perm (last :: tail) :=
      ((perm_siftUp lt pos sunk pos).trans hsunk).toList
    exact ((List.perm_append_singleton last tail).trans hrest.symm).cons item

theorem mem_of_pop? {lt : α → α → Bool} {items rest : Array α} {item x : α}
    (h : pop? lt items = some (item, rest)) : x ∈ items ↔ x = item ∨ x ∈ rest := by
  rw [← Array.mem_toList_iff, (perm_of_pop? h).mem_iff, List.mem_cons, Array.mem_toList_iff]

theorem ordered_of_pop? {lt : α → α → Bool} {le : α → α → Prop} (hle : Follows lt le)
    {items rest : Array α} {item : α} (ho : Ordered le items)
    (h : pop? lt items = some (item, rest)) : Ordered le rest := by
  rcases pop?_cases h with ⟨rfl, rfl⟩ | ⟨tail, last, sunk, pos, rfl, hsink, rfl⟩
  · intro i _ a b ha
    simp at ha
  · have hs : Sinking le (last :: tail).toArray 0 := by
      refine ⟨fun i h0 _ hup a b ha hb => ?_, fun i h0 => absurd h0 (by omega)⟩
      -- away from the first place the items are those of the heap before
      have hold : ∀ k c, 0 < k → (last :: tail).toArray[k]? = some c →
          (item :: tail ++ [last]).toArray[k]? = some c := by
        intro k c hk hc
        obtain ⟨k, rfl⟩ : ∃ n, k = n + 1 := ⟨k - 1, by omega⟩
        simp only [List.getElem?_toArray, List.cons_append, List.getElem?_cons_succ] at hc ⊢
        rw [List.getElem?_append_left (List.getElem?_eq_some_iff.mp hc).1, hc]
      exact ho i h0 a b (hold _ _ (by omega) ha) (hold _ _ h0 hb)
    have hsteps : (last :: tail).toArray.size ≤ 0 + (tail.length + 1) := by simp
    have hr := rising_sinkToBottom hle hsteps hs
    rw [hsink] at hr
    exact ordered_siftUp hle (Nat.le_refl _) hr

/-- The first item comes before every other. -/
theorem Ordered.le_of_mem {lt : α → α → Bool} {le : α → α → Prop} (hle : Follows lt le)
    {items : Array α} (h : Ordered le items) {first x : α} (hf : items[0]? = some first)
    (hx : x ∈ items) : le first x := by
  obtain ⟨i, hi⟩ := Array.mem_iff_getElem?.mp hx
  induction i using Nat.strongRecOn generalizing x with
  | ind i ih =>
    rcases Nat.eq_zero_or_pos i with rfl | h0
    · rw [hf] at hi
      cases hi
      exact hle.refl _
    · have hsize : i < items.size := (Array.getElem?_eq_some_iff.mp hi).1
      have hup : items[(i - 1) / 2]? = some items[(i - 1) / 2] :=
        Array.getElem?_eq_getElem (by omega)
      have habove := ih ((i - 1) / 2) (by omega) (Array.mem_of_getElem? hup) hup
      exact hle.trans habove (h i h0 _ _ hup hi)

theorem getElem?_zero_of_pop? {lt : α → α → Bool} {items rest : Array α} {item : α}
    (h : pop? lt items = some (item, rest)) : items[0]? = some item := by
  rcases pop?_cases h with ⟨rfl, rfl⟩ | ⟨tail, last, sunk, pos, rfl, hsink, rfl⟩
  · rfl
  · simp

/-- **What is popped comes first.** -/
theorem le_of_pop? {lt : α → α → Bool} {le : α → α → Prop} (hle : Follows lt le)
    {items rest : Array α} {item x : α} (ho : Ordered le items)
    (h : pop? lt items = some (item, rest)) (hx : x ∈ items) : le item x :=
  ho.le_of_mem hle (getElem?_zero_of_pop? h) hx

/-- Only an empty heap has nothing to pop. -/
theorem pop?_eq_none_iff {lt : α → α → Bool} {items : Array α} :
    pop? lt items = none ↔ items = #[] := by
  constructor
  · intro h
    rw [pop?] at h
    split at h
    · dsimp only at h
      split at h <;> cases h
    · rename_i hnone
      by_contra hne
      have hsize : 0 < items.size := Array.size_pos_iff.mpr hne
      exact hnone items[0] items[items.size - 1] (Array.getElem?_eq_getElem hsize)
        (by rw [Array.back?, Array.getElem?_eq_getElem (by omega)])
  · rintro rfl
    rfl

end Heap

end JoinPlan
