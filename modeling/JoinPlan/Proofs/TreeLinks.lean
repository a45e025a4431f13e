import JoinPlan.Tree.Basic
import Mathlib.Data.List.Basic
import Mathlib.Logic.Relation

/-!
# Parents and children of a growing tree

A canonical tree grows by two operations. `push` adds a join that stands nowhere yet, and `adopt`
gives such a loose join its parent. Neither changes what a join is, only where it stands: the joins
without their places are kept by `adopt`, and `push` adds one.

`Linked` is what holds between the joins at every moment: each is listed once among the children of
its parent and nowhere else, and lies one table beyond its parent.

## Main definitions

* `JoinTree.contents`: the joins without their places.
* `JoinTree.parentOf?`, `JoinTree.trailOf?`: the parent and the trail of the join at a position.
* `JoinTree.IsWithin`, `JoinTree.IsBelow`: a join stands somewhere below another.
* `JoinTree.Linked`: parents, children and trails agree.
* `JoinTree.IsLoose`: a join that stands below nothing.

## Main results

* `JoinTree.Linked.push`, `JoinTree.Linked.adopt`: both operations keep the links in order.
* `JoinTree.isLoose_push_iff`, `JoinTree.isLoose_adopt_iff`: which joins are loose afterwards.
-/

namespace JoinPlan

/-- The join without its place in a tree. -/
def JoinNode.unlinked (node : JoinNode) : JoinNode :=
  { node with parent := none, children := [] }

namespace JoinTree

variable {tree : JoinTree} {node : JoinNode} {parent child id : Nat}

/-- The joins without their places. -/
def contents (tree : JoinTree) : List JoinNode :=
  tree.nodes.map JoinNode.unlinked

/-- The parent of the join at a position, if it has one. -/
def parentOf? (tree : JoinTree) (id : Nat) : Option Nat :=
  (tree.node? id).bind (·.parent)

/-- The first join is the second one or stands below it, at any depth. -/
def IsWithin (tree : JoinTree) : Nat → Nat → Prop :=
  Relation.ReflTransGen fun child parent => tree.parentOf? child = some parent

/-- The first join stands below the second one, at any depth. -/
def IsBelow (tree : JoinTree) : Nat → Nat → Prop :=
  Relation.TransGen fun child parent => tree.parentOf? child = some parent

/-- The trail of the join at a position. -/
def trailOf? (tree : JoinTree) (id : Nat) : Option (List TableRef) :=
  (tree.node? id).map (·.trail)

@[simp] theorem length_contents (tree : JoinTree) : tree.contents.length = tree.nodes.length :=
  List.length_map _

theorem getElem?_contents (tree : JoinTree) (id : Nat) :
    tree.contents[id]? = (tree.node? id).map JoinNode.unlinked :=
  List.getElem?_map

theorem trailOf?_eq_contents (tree : JoinTree) (id : Nat) :
    tree.trailOf? id = tree.contents[id]?.map (·.trail) := by
  rw [getElem?_contents, Option.map_map]
  rfl

theorem parentOf?_eq (h : tree.node? id = some node) : tree.parentOf? id = node.parent := by
  rw [parentOf?, h, Option.bind_some]

theorem trailOf?_eq (h : tree.node? id = some node) : tree.trailOf? id = some node.trail := by
  rw [trailOf?, h, Option.map_some]

theorem childrenOf_eq (h : tree.node? id = some node) : tree.childrenOf id = node.children := by
  rw [childrenOf, h]

theorem lt_length_of_trailOf? {trail : List TableRef} (h : tree.trailOf? id = some trail) :
    id < tree.nodes.length := by
  obtain ⟨node, hnode, -⟩ := Option.map_eq_some_iff.mp h
  exact (List.getElem?_eq_some_iff.mp hnode).1

/-! ### Pushing a join -/

theorem node?_push (tree : JoinTree) (node : JoinNode) (id : Nat) :
    (tree.push node).node? id = if id = tree.nodes.length then some node else tree.node? id := by
  simp only [push, node?, List.getElem?_append]
  split_ifs with h₁ h₂ h₃
  · omega
  · rfl
  · simp [h₃]
  · rw [List.getElem?_eq_none (by simp; omega), List.getElem?_eq_none (by omega)]

theorem contents_push (tree : JoinTree) (node : JoinNode) :
    (tree.push node).contents = tree.contents ++ [node.unlinked] := by
  simp [contents, push]

theorem parentOf?_push (h : node.parent = none) :
    (tree.push node).parentOf? id = tree.parentOf? id := by
  rw [parentOf?, parentOf?, node?_push]
  split_ifs with hid
  · rw [Option.bind_some, h, node?, List.getElem?_eq_none (Nat.le_of_eq hid.symm), Option.bind_none]
  · rfl

theorem childrenOf_push (h : node.children = []) :
    (tree.push node).childrenOf id = tree.childrenOf id := by
  rw [childrenOf, childrenOf, node?_push]
  split_ifs with hid
  · rw [node?, List.getElem?_eq_none (Nat.le_of_eq hid.symm)]
    exact h
  · rfl

theorem trailOf?_push (tree : JoinTree) (node : JoinNode) (id : Nat) :
    (tree.push node).trailOf? id =
      if id = tree.nodes.length then some node.trail else tree.trailOf? id := by
  rw [trailOf?, node?_push]
  split_ifs <;> rfl

theorem trailOf?_push_of_some {trail : List TableRef} (node : JoinNode)
    (h : tree.trailOf? id = some trail) : (tree.push node).trailOf? id = some trail := by
  rw [trailOf?_push, if_neg (Nat.ne_of_lt (lt_length_of_trailOf? h)), h]

/-! ### Adopting a join -/

theorem node?_adopt (tree : JoinTree) (parent child id : Nat) :
    (tree.adopt parent child).node? id = (tree.node? id).map fun node =>
      { node with
        parent := if id = child then some parent else node.parent
        children := if id = parent then node.children ++ [child] else node.children } := by
  simp only [adopt, node?, List.getElem?_modify, Option.map_eq_map, Option.map_map]
  refine Option.map_congr fun node _ => ?_
  by_cases hc : child = id <;> by_cases hp : parent = id <;>
    simp [hc, hp, eq_comm (a := id)]

theorem contents_adopt (tree : JoinTree) (parent child : Nat) :
    (tree.adopt parent child).contents = tree.contents := by
  refine List.ext_getElem? fun id => ?_
  rw [getElem?_contents, getElem?_contents, node?_adopt, Option.map_map]
  rfl

@[simp] theorem trailOf?_adopt (tree : JoinTree) (parent child id : Nat) :
    (tree.adopt parent child).trailOf? id = tree.trailOf? id := by
  rw [trailOf?_eq_contents, contents_adopt, trailOf?_eq_contents]

theorem parentOf?_adopt (h : child < tree.nodes.length) :
    (tree.adopt parent child).parentOf? id =
      if id = child then some parent else tree.parentOf? id := by
  rw [parentOf?, parentOf?, node?_adopt]
  cases hnode : tree.node? id with
  | none =>
    have hid : id ≠ child := by
      rintro rfl
      exact absurd h (Nat.not_lt_of_le (List.getElem?_eq_none_iff.mp hnode))
    rw [if_neg hid]
    rfl
  | some node =>
    by_cases hid : id = child
    · simp [hid]
    · simp [hid]

theorem childrenOf_adopt (h : parent < tree.nodes.length) :
    (tree.adopt parent child).childrenOf id =
      if id = parent then tree.childrenOf id ++ [child] else tree.childrenOf id := by
  rw [childrenOf, childrenOf, node?_adopt]
  cases hnode : tree.node? id with
  | none =>
    have hid : id ≠ parent := by
      rintro rfl
      exact absurd h (Nat.not_lt_of_le (List.getElem?_eq_none_iff.mp hnode))
    rw [if_neg hid]
    rfl
  | some node =>
    by_cases hid : id = parent
    · simp [hid]
    · simp [hid]

/-! ### Links -/

/-- Parents, children and trails agree. -/
structure Linked (tree : JoinTree) : Prop where
  /-- A join is listed once among the children of its parent, and nowhere else. -/
  count : ∀ parent child, (tree.childrenOf parent).count child =
    if tree.parentOf? child = some parent then 1 else 0
  /-- A join lies one table beyond its parent. -/
  beyond : ∀ child parent, tree.parentOf? child = some parent →
    ∃ table behind, tree.trailOf? child = some (table :: behind) ∧
      tree.trailOf? parent = some behind

theorem Linked.count_children (h : tree.Linked) (hparent : tree.parentOf? id = some parent)
    (hnode : tree.node? parent = some node) : node.children.count id = 1 := by
  rw [← childrenOf_eq hnode, h.count, if_pos hparent]

theorem Linked.mem_childrenOf_iff (h : tree.Linked) :
    id ∈ tree.childrenOf parent ↔ tree.parentOf? id = some parent := by
  rw [← List.count_pos_iff, h.count]
  split_ifs with hparent
  · simp [hparent]
  · simp [hparent]

theorem Linked.mem_children_iff (h : tree.Linked) (hnode : tree.node? parent = some node) :
    id ∈ node.children ↔ tree.parentOf? id = some parent := by
  rw [← childrenOf_eq hnode, h.mem_childrenOf_iff]

/-- The join at a position stands below nothing. -/
def IsLoose (tree : JoinTree) (id : Nat) : Prop :=
  id < tree.nodes.length ∧ tree.parentOf? id = none

theorem Linked.push (h : tree.Linked) (hnode : node.unlinked = node) :
    (tree.push node).Linked := by
  have hparent : node.parent = none := (congrArg JoinNode.parent hnode).symm
  have hchildren : node.children = [] := (congrArg JoinNode.children hnode).symm
  constructor
  · intro parent child
    rw [childrenOf_push hchildren, parentOf?_push hparent, h.count]
  · intro child parent hp
    rw [parentOf?_push hparent] at hp
    obtain ⟨table, behind, hc, hb⟩ := h.beyond child parent hp
    exact ⟨table, behind, trailOf?_push_of_some node hc, trailOf?_push_of_some node hb⟩

theorem isLoose_push_iff (hnode : node.unlinked = node) :
    (tree.push node).IsLoose id ↔ tree.IsLoose id ∨ id = tree.nodes.length := by
  have hparent : node.parent = none := (congrArg JoinNode.parent hnode).symm
  rw [IsLoose, IsLoose, parentOf?_push hparent, length_push, Nat.lt_succ_iff_lt_or_eq]
  constructor
  · rintro ⟨hlt | heq, hnone⟩
    · exact .inl ⟨hlt, hnone⟩
    · exact .inr heq
  · rintro (⟨hlt, hnone⟩ | rfl)
    · exact ⟨.inl hlt, hnone⟩
    · refine ⟨.inr rfl, ?_⟩
      rw [parentOf?, node?, List.getElem?_eq_none (Nat.le_refl _), Option.bind_none]

theorem Linked.adopt (h : tree.Linked) (hloose : tree.IsLoose child) {table : TableRef}
    {behind : List TableRef} (hchild : tree.trailOf? child = some (table :: behind))
    (hparent : tree.trailOf? parent = some behind) : (tree.adopt parent child).Linked := by
  constructor
  · intro p c
    have hold := h.count p c
    rw [childrenOf_adopt (lt_length_of_trailOf? hparent), parentOf?_adopt hloose.1]
    by_cases hc : c = child
    · subst hc
      rw [hloose.2, if_neg (by simp)] at hold
      by_cases hp : p = parent
      · simp [hp, hp ▸ hold]
      · simp [hp, hold, Ne.symm hp]
    · rw [if_neg hc, ← hold]
      by_cases hp : p = parent
      · simp [hp, Ne.symm hc]
      · simp [hp]
  · intro c p hp
    rw [parentOf?_adopt hloose.1] at hp
    rw [trailOf?_adopt, trailOf?_adopt]
    split_ifs at hp with hc
    · cases hp
      exact ⟨table, behind, hc ▸ hchild, hparent⟩
    · exact h.beyond c p hp

theorem isLoose_adopt_iff (h : child < tree.nodes.length) :
    (tree.adopt parent child).IsLoose id ↔ tree.IsLoose id ∧ id ≠ child := by
  rw [IsLoose, IsLoose, length_adopt, parentOf?_adopt h]
  split_ifs with hid
  · simp [hid]
  · simp [hid]

end JoinTree

end JoinPlan
