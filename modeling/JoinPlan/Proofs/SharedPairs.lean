import JoinPlan.Graph.Similarity
import Mathlib.Algebra.BigOperators.Finprod
import Mathlib.Data.Multiset.UnionInter

/-!
# Each pair is shared as often as both lists have it

The two lists are not treated alike: one is counted, and the entries of the other use the counts
up one by one. After any part of the second list there are still so many of each pair as the
first list has more of it than this part, and so many entries were matched as the first list and
this part have in common. At the end nothing shows which list was counted.

## Main definitions

* `Tally.remaining`: how many of a pair are left.
* `Matching.Reflects`: what is left and what was matched after a part of the second list.

## Main results

* `Matching.Reflects.step`, `Matching.Reflects.foldl`: it holds after each entry, and so at the end.
* `sharedCount_eq_card`: the shared pairs are the intersection of two multisets.
* `sharedCount_eq_finsum`: every pair counts as often as it is in the list with fewer of it.
* `two_mul_sharedCount_eq_iff`: everything is shared by lists with the same pairs only.
-/

namespace JoinPlan

variable {first second consumed : List (Char × Char)}

/-! ### Tallies -/

namespace Tally

/-- How many of a pair are left. -/
def remaining : Tally → Char × Char → Nat
  | [], _ => 0
  | (other, number) :: rest, pair => if other = pair then number else remaining rest pair

theorem remaining_add (tally : Tally) (pair other : Char × Char) :
    (tally.add pair).remaining other = tally.remaining other + if pair = other then 1 else 0 := by
  induction tally with
  | nil => rw [add, remaining, remaining, remaining, Nat.zero_add]
  | cons entry rest ih =>
    obtain ⟨known, number⟩ := entry
    rw [add]
    by_cases hknown : known = pair
    · rw [if_pos hknown, remaining, remaining, ← hknown]
      split_ifs
      · rfl
      · rfl
    · rw [if_neg hknown, remaining, remaining, ih]
      by_cases hother : known = other
      · rw [if_pos hother, if_pos hother, if_neg (hother ▸ Ne.symm hknown), Nat.add_zero]
      · rw [if_neg hother, if_neg hother]

theorem remaining_foldl_add (entries : List (Char × Char)) (tally : Tally) (pair : Char × Char) :
    (entries.foldl add tally).remaining pair = tally.remaining pair + entries.count pair := by
  induction entries generalizing tally with
  | nil => rfl
  | cons entry entries ih =>
    rw [List.foldl_cons, ih, remaining_add, List.count_cons]
    simp only [beq_iff_eq]
    omega

/-- A tally starts with as many of a pair as there are in the list. -/
@[simp] theorem remaining_ofList (entries : List (Char × Char)) (pair : Char × Char) :
    (ofList entries).remaining pair = entries.count pair := by
  rw [ofList, remaining_foldl_add, remaining, Nat.zero_add]

/-- Nothing can be taken where nothing is left. -/
theorem take?_eq_none_iff {tally : Tally} {pair : Char × Char} :
    tally.take? pair = none ↔ tally.remaining pair = 0 := by
  induction tally with
  | nil => simp [take?, remaining]
  | cons entry rest ih =>
    obtain ⟨known, number⟩ := entry
    rw [take?, remaining]
    by_cases hknown : known = pair
    · rw [if_pos hknown, if_pos hknown]
      by_cases hnumber : 0 < number
      · simp [hnumber, Nat.ne_of_gt hnumber]
      · simp [Nat.eq_zero_of_not_pos hnumber]
    · rw [if_neg hknown, if_neg hknown, Option.map_eq_none_iff, ih]

/-- What is taken can be put back. -/
theorem add_of_take? {tally unused : Tally} {pair : Char × Char}
    (h : tally.take? pair = some unused) : unused.add pair = tally := by
  induction tally generalizing unused with
  | nil => cases h
  | cons entry rest ih =>
    obtain ⟨known, number⟩ := entry
    rw [take?] at h
    by_cases hknown : known = pair
    · obtain ⟨hnumber, rfl⟩ : 0 < number ∧ (known, number - 1) :: rest = unused := by
        simpa [hknown] using h
      rw [add, if_pos hknown, Nat.sub_add_cancel hnumber]
    · rw [if_neg hknown] at h
      obtain ⟨others, hothers, rfl⟩ := Option.map_eq_some_iff.mp h
      rw [add, if_neg hknown, ih hothers]

end Tally

/-! ### Matching one list with the other -/

theorem count_concat (entries : List (Char × Char)) (pair other : Char × Char) :
    (entries ++ [pair]).count other = entries.count other + if pair = other then 1 else 0 := by
  rw [List.count_append, List.count_singleton]
  simp only [beq_iff_eq]

/-- Two lists have as many of a pair in common as both of them have. -/
theorem count_inter_coe (first second : List (Char × Char)) (pair : Char × Char) :
    (first ∩ second : Multiset (Char × Char)).count pair =
      min (first.count pair) (second.count pair) := by
  -- multisets compare pairs as a whole, lists compare them part by part
  have hbeq : (instBEqOfDecidableEq : BEq (Char × Char)) = instBEqProd :=
    lawful_beq_subsingleton _ _
  rw [Multiset.count_inter, Multiset.coe_count, Multiset.coe_count, hbeq]

/-- One more entry is in common with a list that has more of it than was consumed. -/
theorem inter_concat (first consumed : List (Char × Char)) (pair : Char × Char) :
    (first ∩ ↑(consumed ++ [pair]) : Multiset (Char × Char)) =
      if consumed.count pair < first.count pair then pair ::ₘ (↑first ∩ ↑consumed)
      else ↑first ∩ ↑consumed := by
  ext other
  rw [count_inter_coe, count_concat]
  by_cases hother : pair = other
  · subst hother
    rw [if_pos rfl]
    split_ifs
    · rw [Multiset.count_cons_self, count_inter_coe]
      omega
    · rw [count_inter_coe]
      omega
  · rw [if_neg hother, Nat.add_zero]
    split_ifs
    · rw [Multiset.count_cons_of_ne (Ne.symm hother), count_inter_coe]
    · rw [count_inter_coe]

namespace Matching

variable {matching : Matching}

/-- What is left of the first list and how much was matched once a part of the second is
consumed. -/
structure Reflects (matching : Matching) (first consumed : List (Char × Char)) : Prop where
  /-- Of each pair so many are left as the first list has more of it. -/
  unused : ∀ pair, matching.unused.remaining pair = first.count pair - consumed.count pair
  /-- What was matched is what the first list has in common with what is consumed. -/
  shared : matching.shared = (first ∩ consumed : Multiset (Char × Char)).card

theorem reflects_start (first : List (Char × Char)) :
    (⟨.ofList first, 0⟩ : Matching).Reflects first [] where
  unused := by simp
  shared := by simp

/-- **One more entry of the second list** is matched if the first has more of it. -/
theorem Reflects.step (h : matching.Reflects first consumed) (pair : Char × Char) :
    (matching.step pair).Reflects first (consumed ++ [pair]) := by
  have hpair := h.unused pair
  rw [Matching.step]
  cases htake : matching.unused.take? pair with
  | none =>
    rw [Tally.take?_eq_none_iff.mp htake] at hpair
    constructor
    · intro other
      rw [h.unused, count_concat]
      split_ifs with hother
      · subst hother
        omega
      · rfl
    · rw [inter_concat, if_neg (by omega)]
      exact h.shared
  | some unused =>
    have hleft : ∀ other, first.count other - consumed.count other =
        unused.remaining other + if pair = other then 1 else 0 := by
      intro other
      rw [← h.unused, ← Tally.add_of_take? htake, Tally.remaining_add]
    have hself := hleft pair
    rw [if_pos rfl] at hself
    constructor
    · intro other
      rw [count_concat, Nat.sub_add_eq, hleft, Nat.add_sub_cancel]
    · rw [inter_concat, if_pos (by omega), Multiset.card_cons, ← h.shared]

/-- What was matched at the end is what the lists have in common. -/
theorem Reflects.foldl (h : matching.Reflects first consumed) (rest : List (Char × Char)) :
    (rest.foldl Matching.step matching).Reflects first (consumed ++ rest) := by
  induction rest generalizing matching consumed with
  | nil => simpa using h
  | cons pair rest ih =>
    rw [List.foldl_cons, List.append_cons]
    exact ih (h.step pair)

end Matching

/-! ### The shared count -/

/-- **Two lists share their intersection**, whichever of them is counted. -/
theorem sharedCount_eq_card (first second : List (Char × Char)) :
    sharedCount first second = (first ∩ second : Multiset (Char × Char)).card :=
  ((Matching.reflects_start first).foldl second).shared

/-- **Every pair is shared as often as both lists have it.** All but finitely many are in neither
list. -/
theorem sharedCount_eq_finsum (first second : List (Char × Char)) :
    sharedCount first second = ∑ᶠ pair, min (first.count pair) (second.count pair) := by
  simp only [← count_inter_coe]
  rw [sharedCount_eq_card, ← Multiset.toFinset_sum_count_eq]
  refine (finsum_eq_sum_of_support_subset _ fun pair hpair => ?_).symm
  rw [Finset.mem_coe, Multiset.mem_toFinset]
  exact Multiset.count_ne_zero.mp hpair

theorem sharedCount_comm (first second : List (Char × Char)) :
    sharedCount first second = sharedCount second first := by
  rw [sharedCount_eq_card, sharedCount_eq_card, Multiset.inter_comm]

theorem sharedCount_le_left (first second : List (Char × Char)) :
    sharedCount first second ≤ first.length := by
  rw [sharedCount_eq_card, ← Multiset.coe_card]
  exact Multiset.card_le_card Multiset.inter_le_left

theorem sharedCount_le_right (first second : List (Char × Char)) :
    sharedCount first second ≤ second.length :=
  sharedCount_comm first second ▸ sharedCount_le_left second first

/-- **All pairs are shared** if and only if the lists have the same pairs equally often. -/
theorem two_mul_sharedCount_eq_iff :
    2 * sharedCount first second = first.length + second.length ↔
      (first : Multiset (Char × Char)) = second := by
  constructor
  · intro h
    have hfirst := sharedCount_le_left first second
    have hsecond := sharedCount_le_right first second
    rw [sharedCount_eq_card] at h hfirst hsecond
    calc (first : Multiset (Char × Char))
        = ↑first ∩ ↑second :=
          (Multiset.eq_of_le_of_card_le Multiset.inter_le_left
            (by rw [Multiset.coe_card]; omega)).symm
      _ = second :=
          Multiset.eq_of_le_of_card_le Multiset.inter_le_right
            (by rw [Multiset.coe_card]; omega)
  · intro h
    have hlength : first.length = second.length := by
      rw [← Multiset.coe_card, ← Multiset.coe_card, h]
    rw [sharedCount_eq_card, h, ← Multiset.inf_eq_inter, inf_idem, Multiset.coe_card, hlength,
      Nat.two_mul]

-- the pair that one name has twice is shared once
example : sharedCount (pairs ['a', 'b', 'a', 'b']) (pairs ['a', 'b', 'b']) = 1 := by decide

end JoinPlan
