import JoinPlan.Proofs.ConditionText
import Mathlib.Data.List.Flatten

/-!
# Pruned conditions

A condition is complete if all its leaves are filled in, however deep they lie. Pruning looks at the
parts of the outermost group only, and keeps those that are complete as they are.

The two agree but for one shape. A group without parts has no leaf that is not filled in, and yet
nothing is left of it. Further down such a group is a complete part like any other, and stays.

So what pruning leaves is complete and no empty group, and of such a condition it leaves everything.
That it can be pruned again, and can be rendered if the whole could, follows from this and from the
leaves, none of which is new.

## Main definitions

* `Condition.IsLeaf`, `Condition.IsFilled`: conditions that are no groups, and those filled in.
* `Condition.PrunedTo`: what is left is complete, for good, and made of leaves that were there.

## Main results

* `Condition.isComplete_iff`: completeness is a question of the leaves.
* `Condition.complete?_eq_some_iff`, `Condition.complete?_eq_none_iff`: what pruning leaves.
* `Condition.exists_renderOn_of_sublist`: fewer leaves can be rendered where more can.
* `Condition.prunedTo_complete?`: when nothing is left, when everything is, and what is left.
-/

namespace JoinPlan

namespace Condition

variable {c d : Condition} {connective : Connective} {parts : List Condition}

/-! ### Leaves -/

/-- The condition is no group. -/
def IsLeaf (c : Condition) : Prop :=
  ∀ connective parts, c ≠ group connective parts

/-- The condition is a leaf that names a column and has something to compare it with. -/
def IsFilled : Condition → Prop
  | group _ _ => False
  | membership column _ values => column ≠ "" ∧ values ≠ []
  | comparison column _ value => column ≠ "" ∧ value ≠ ""

theorem leavesOf_eq (parts : List Condition) : leavesOf parts = parts.flatMap leaves := by
  induction parts with
  | nil => rfl
  | cons part rest ih => rw [leavesOf, ih, List.flatMap_cons]

theorem isComplete_group_iff :
    (group connective parts).isComplete = true ↔ ∀ part ∈ parts, part.isComplete = true := by
  rw [isComplete, allComplete_eq, List.all_eq_true]

mutual

/-- **A condition is complete if all its leaves are filled in.** -/
theorem isComplete_iff : ∀ c : Condition,
    c.isComplete = true ↔ ∀ leaf ∈ c.leaves, leaf.IsFilled
  | group connective parts => by
    rw [isComplete_group_iff, leaves]
    exact forall_isComplete_iff parts
  | membership column operator values => by
    simp [isComplete, leaves, IsFilled]
  | comparison column operator value => by
    simp [isComplete, leaves, IsFilled]

theorem forall_isComplete_iff : ∀ parts : List Condition,
    (∀ part ∈ parts, part.isComplete = true) ↔ ∀ leaf ∈ leavesOf parts, leaf.IsFilled
  | [] => by simp [leavesOf]
  | part :: rest => by
    rw [List.forall_mem_cons, leavesOf, List.forall_mem_append, isComplete_iff part,
      forall_isComplete_iff rest]

end

mutual

/-- The columns of a condition are those of its leaves. -/
theorem columns_eq_flatMap : ∀ c : Condition, c.columns = c.leaves.flatMap columns
  | group _ parts => columnsOf_eq_flatMap parts
  | membership _ _ _ => rfl
  | comparison _ _ _ => rfl

theorem columnsOf_eq_flatMap : ∀ parts : List Condition,
    columnsOf parts = (leavesOf parts).flatMap columns
  | [] => rfl
  | part :: rest => by
    rw [columnsOf, leavesOf, List.flatMap_append, columns_eq_flatMap part,
      columnsOf_eq_flatMap rest]

end

/-! ### What pruning leaves -/

theorem complete?_group_eq_some_iff :
    (group connective parts).complete? = some d ↔
      parts.filter isComplete ≠ [] ∧ d = group connective (parts.filter isComplete) := by
  simp only [complete?, List.isEmpty_iff]
  split_ifs with hnone
  · simp [hnone]
  · simp [hnone, eq_comm]

theorem complete?_group_eq_none_iff :
    (group connective parts).complete? = none ↔ ∀ part ∈ parts, part.isComplete = false := by
  simp [complete?, List.filter_eq_nil_iff]

theorem complete?_leaf (h : c.IsLeaf) :
    c.complete? = if c.isComplete then some c else none := by
  cases c with
  | group connective parts => exact absurd rfl (h connective parts)
  | membership column operator values => rfl
  | comparison column operator value => rfl

/-- A condition is a leaf or a group. -/
theorem isLeaf_or_exists (c : Condition) :
    c.IsLeaf ∨ ∃ connective parts, c = group connective parts := by
  cases c with
  | group connective parts => exact .inr ⟨connective, parts, rfl⟩
  | membership column operator values => exact .inl fun _ _ h => by cases h
  | comparison column operator value => exact .inl fun _ _ h => by cases h

/-- **Pruning keeps** a complete leaf, and of a group the complete parts if there are any. -/
theorem complete?_eq_some_iff : c.complete? = some d ↔
    (c.IsLeaf ∧ c.isComplete = true ∧ d = c) ∨
      ∃ connective parts, c = group connective parts ∧ parts.filter isComplete ≠ [] ∧
        d = group connective (parts.filter isComplete) := by
  constructor
  · intro h
    rcases c.isLeaf_or_exists with hleaf | ⟨connective, parts, rfl⟩
    · rw [complete?_leaf hleaf, Option.ite_none_right_eq_some] at h
      exact .inl ⟨hleaf, h.1, (Option.some.inj h.2).symm⟩
    · exact .inr ⟨connective, parts, rfl, complete?_group_eq_some_iff.mp h⟩
  · rintro (⟨hleaf, hcomplete, rfl⟩ | ⟨connective, parts, rfl, h⟩)
    · rw [complete?_leaf hleaf, if_pos hcomplete]
    · exact complete?_group_eq_some_iff.mpr h

/-- **Nothing is left** of an incomplete leaf, and of a group without complete parts. -/
theorem complete?_eq_none_iff : c.complete? = none ↔
    (c.IsLeaf ∧ c.isComplete = false) ∨
      ∃ connective parts, c = group connective parts ∧
        ∀ part ∈ parts, part.isComplete = false := by
  constructor
  · intro h
    rcases c.isLeaf_or_exists with hleaf | ⟨connective, parts, rfl⟩
    · rw [complete?_leaf hleaf] at h
      exact .inl ⟨hleaf, by simpa using h⟩
    · exact .inr ⟨connective, parts, rfl, complete?_group_eq_none_iff.mp h⟩
  · rintro (⟨hleaf, hcomplete⟩ | ⟨connective, parts, rfl, h⟩)
    · rw [complete?_leaf hleaf, hcomplete, if_neg Bool.false_ne_true]
    · exact complete?_group_eq_none_iff.mpr h

/-- Nothing is pruned from a complete condition, unless it is a group without parts. -/
theorem complete?_of_isComplete (h : c.isComplete = true)
    (hne : ∀ connective, c ≠ group connective []) : c.complete? = some c := by
  rcases c.isLeaf_or_exists with hleaf | ⟨connective, parts, rfl⟩
  · rw [complete?_leaf hleaf, if_pos h]
  · have hall : parts.filter isComplete = parts :=
      List.filter_eq_self.mpr (isComplete_group_iff.mp h)
    rw [complete?_group_eq_some_iff, hall]
    refine ⟨?_, rfl⟩
    rintro rfl
    exact hne connective rfl

/-- What pruning leaves is complete, and no group without parts. -/
theorem isComplete_of_complete? (h : c.complete? = some d) :
    d.isComplete = true ∧ ∀ connective, d ≠ group connective [] := by
  rcases complete?_eq_some_iff.mp h with ⟨hleaf, hcomplete, rfl⟩ |
    ⟨connective, parts, rfl, hsome, rfl⟩
  · exact ⟨hcomplete, fun connective => hleaf connective []⟩
  · refine ⟨isComplete_group_iff.mpr fun part hpart => (List.mem_filter.mp hpart).2, ?_⟩
    intro k hk
    injection hk with _ hnone
    exact hsome hnone

/-- No leaf is new, and they are in the order they were in. -/
theorem leaves_of_complete? (h : c.complete? = some d) : d.leaves.Sublist c.leaves := by
  rcases complete?_eq_some_iff.mp h with ⟨-, -, rfl⟩ | ⟨connective, parts, rfl, -, rfl⟩
  · exact .refl _
  · rw [leaves, leaves, leavesOf_eq, leavesOf_eq]
    exact List.filter_sublist.flatMap leaves

/-- **Fewer leaves can be rendered where more can.** -/
theorem exists_renderOn_of_sublist {ref : TableRef} {table : Table} {joinAlias : Option String}
    (h : d.leaves.Sublist c.leaves) (hc : ∃ text, c.renderOn ref table joinAlias = .ok text) :
    ∃ text, d.renderOn ref table joinAlias = .ok text := by
  obtain ⟨_, hc⟩ := hc
  have hcolumns := (renderOn_eq_ok_iff.mp hc).1
  have hsub : d.columns.Sublist c.columns := by
    rw [columns_eq_flatMap c, columns_eq_flatMap d]
    exact h.flatMap columns
  exact ⟨_, renderOn_eq_ok_iff.mpr ⟨fun column hd => hcolumns column (hsub.subset hd), rfl⟩⟩

/-! ### Pruning -/

/-- What is left of a condition is complete and has nothing left to prune. Its leaves were there
before, so it can be rendered wherever the whole could. -/
structure PrunedTo (c d : Condition) : Prop where
  isComplete : d.isComplete = true
  settles : d.complete? = some d
  leaves : d.leaves.Sublist c.leaves
  renders : ∀ ref table joinAlias, (∃ text, c.renderOn ref table joinAlias = .ok text) →
    ∃ text, d.renderOn ref table joinAlias = .ok text

theorem PrunedTo.of_complete? (h : c.complete? = some d) : c.PrunedTo d := by
  obtain ⟨hcomplete, hne⟩ := isComplete_of_complete? h
  exact
    { isComplete := hcomplete
      settles := complete?_of_isComplete hcomplete hne
      leaves := leaves_of_complete? h
      renders := fun _ _ _ => exists_renderOn_of_sublist (leaves_of_complete? h) }

/-- **Pruning.** Nothing is left of an incomplete leaf, and of a group without a complete part.
A condition stays as it is if and only if it is complete and no group without parts. Whatever is
left is pruned. -/
theorem prunedTo_complete? (c : Condition) :
    (c.complete? = none ↔ (c.IsLeaf ∧ c.isComplete = false) ∨
      ∃ connective parts, c = group connective parts ∧
        ∀ part ∈ parts, part.isComplete = false) ∧
    (c.complete? = some c ↔ c.isComplete = true ∧ ∀ connective, c ≠ group connective []) ∧
    ∀ d, c.complete? = some d → c.PrunedTo d := by
  refine ⟨complete?_eq_none_iff, ⟨isComplete_of_complete?, ?_⟩, fun _ => PrunedTo.of_complete?⟩
  rintro ⟨hcomplete, hne⟩
  exact complete?_of_isComplete hcomplete hne

end Condition

/-- A group without parts, further down, is a complete part; a comparison with nothing is not. -/
example :
    (Condition.group .conjunction [.group .disjunction [], .comparison "id" .equal ""]).complete? =
      some (.group .conjunction [.group .disjunction []]) := by
  decide

end JoinPlan
