import JoinPlan.Proofs.Bridges
import JoinPlan.Proofs.DistinctAliases

/-!
# The numbers of a table's joins

Each join bears the number of joins of its table up to itself. So the numbers of a table's joins, in
the order in which these entered the tree, are one, two, three and so on: none is left out and none
comes twice. The authored joins entered first, in pre-order, and hence bear the first numbers; the
bridges go on from there.

## Main definitions

* `JoinTree.NumberedInOrder`: the aliases of a tree number the joins of each table.

## Main results

* `Numbered.aliases_eq_range'`: the aliases of a table are its first ones, in their order.
* `Join.numberedInOrder_of_normalize`: the aliases of a canonical tree number the joins of each
  table, the authored ones first.
-/

namespace JoinPlan

/-! ### Numbers without gaps -/

namespace Numbered

variable {nodes front back : List JoinNode}

theorem of_append (h : Numbered (front ++ back)) : Numbered front := by
  intro id node hnode
  have hlt := (List.getElem?_eq_some_iff.mp hnode).1
  have halias := h id node (by rw [List.getElem?_append_left hlt, hnode])
  rwa [List.take_append_of_le_length hlt] at halias

/-- **The aliases of a table are its first ones**, in the order of the joins. -/
theorem aliases_eq_range' (h : Numbered nodes) (table : TableRef) :
    (nodes.filter (·.table = table)).map (·.joinAlias) =
      (List.range' 1 (nodes.countP (·.table = table))).map (numberedAlias table) := by
  induction nodes using List.reverseRecOn with
  | nil => rfl
  | append_singleton front last ih =>
    have hlast := h front.length last (List.getElem?_concat_length ..)
    rw [List.take_of_length_le (by simp), List.countP_append] at hlast
    rw [List.filter_append, List.map_append, ih h.of_append, List.countP_append]
    by_cases htable : last.table = table
    · subst htable
      have hone : [last].countP (·.table = last.table) = 1 := by simp
      rw [hone] at hlast
      rw [hone, List.filter_cons_of_pos (by simp), List.filter_nil, List.map_singleton, hlast,
        List.range'_concat, List.map_append, List.map_singleton, Nat.one_mul, Nat.add_comm 1]
    · simp [htable]

/-- What comes after some joins goes on with the next number. -/
theorem aliases_drop_eq_range' (h : Numbered (front ++ back)) (table : TableRef) :
    (back.filter (·.table = table)).map (·.joinAlias) =
      (List.range' (front.countP (·.table = table) + 1) (back.countP (·.table = table))).map
        (numberedAlias table) := by
  have hall := h.aliases_eq_range' table
  rw [List.filter_append, List.map_append, h.of_append.aliases_eq_range', List.countP_append,
    ← List.range'_append_1, List.map_append, Nat.add_comm 1] at hall
  exact List.append_cancel_left hall

end Numbered

/-! ### Aliases of a canonical tree -/

/-- The aliases of a tree number the joins of each table, the authored ones first. -/
structure JoinTree.NumberedInOrder (base : Join) (tree : JoinTree) : Prop where
  /-- A join bears the number of joins of its table up to itself. -/
  number : ∀ id node, tree.node? id = some node → node.joinAlias =
    numberedAlias node.table ((tree.nodes.take (id + 1)).countP (·.table = node.table))
  /-- The authored joins stand first, as they come in pre-order. -/
  authored : (tree.nodes.take base.preOrder.length).map (fun node => (node.table, node.bridge)) =
    base.preOrder.map fun join => (join.table, false)
  /-- All others are bridges. -/
  bridges : ∀ node ∈ tree.nodes.drop base.preOrder.length, node.bridge = true
  /-- The authored joins of a table have the first numbers. -/
  first : ∀ table,
    ((tree.nodes.take base.preOrder.length).filter (·.table = table)).map (·.joinAlias) =
      (List.range' 1 (base.preOrder.countP (·.table = table))).map (numberedAlias table)
  /-- Its bridges have those that follow. -/
  next : ∀ table,
    ((tree.nodes.drop base.preOrder.length).filter (·.table = table)).map (·.joinAlias) =
      (List.range' (base.preOrder.countP (·.table = table) + 1)
        ((tree.nodes.drop base.preOrder.length).countP (·.table = table))).map
          (numberedAlias table)
  /-- No two joins of a table share an alias. -/
  distinct : tree.nodes.Pairwise fun a b => a.table = b.table → a.joinAlias ≠ b.joinAlias

namespace JoinTree.Built

variable {P : Type} [Penalty P] {graph : JoinGraph P} {base : Join} {tree : JoinTree}
  {placed : List AuthoredJoin} {authored bridges : List JoinNode}

theorem map_take_nodes (h : Built graph base placed authored bridges tree) :
    (tree.nodes.take base.preOrder.length).map (fun node => (node.table, node.bridge)) =
      base.preOrder.map fun join => (join.table, false) := by
  refine List.ext_getElem? fun id => ?_
  rw [List.getElem?_map, List.getElem?_map, List.getElem?_take]
  split_ifs with hid
  · obtain ⟨node, hnode, hbridge, htable, -⟩ := h.exists_authored (List.getElem?_eq_getElem hid)
    rw [List.getElem?_eq_getElem hid, Option.map_some, ← node?, hnode, Option.map_some, hbridge,
      htable]
  · rw [List.getElem?_eq_none (Nat.le_of_not_lt hid), Option.map_none, Option.map_none]

theorem bridge_of_mem_drop_nodes (h : Built graph base placed authored bridges tree)
    {node : JoinNode} (hnode : node ∈ tree.nodes.drop base.preOrder.length) :
    node.bridge = true := by
  obtain ⟨i, hi⟩ := List.getElem?_of_mem hnode
  rw [List.getElem?_drop] at hi
  have hle : authored.length ≤ base.preOrder.length + i := by
    rw [h.length_authored]
    exact Nat.le_add_right _ _
  exact (h.holds.isBridge _ (h.mem_bridges hle hi)).bridge

/-- As many of the first joins are of a table as of the authored ones. -/
theorem countP_take_nodes (h : Built graph base placed authored bridges tree) (table : TableRef) :
    (tree.nodes.take base.preOrder.length).countP (·.table = table) =
      base.preOrder.countP (·.table = table) := by
  have hcount := congrArg (List.countP fun entry => entry.1 = table) h.map_take_nodes
  rwa [List.countP_map, List.countP_map] at hcount

end JoinTree.Built

variable {P : Type} [Penalty P]

/-- **The aliases of a canonical tree number the joins of each table**: first the authored ones in
pre-order, then the bridges, without gaps or repeats. -/
theorem Join.numberedInOrder_of_normalize (catalog : Catalog) (graph : JoinGraph P) (base : Join)
    (tree : JoinTree) (h : base.normalize catalog graph = .ok tree) :
    tree.NumberedInOrder base := by
  obtain ⟨placed, authored, bridges, hbuilt⟩ := JoinTree.built_of_normalize h
  have hnumbered := JoinTree.numbered_nodes (numbered_of_normalize h)
  have hsplit := hnumbered
  rw [← List.take_append_drop base.preOrder.length tree.nodes] at hsplit
  refine ⟨hnumbered, hbuilt.map_take_nodes, fun node => hbuilt.bridge_of_mem_drop_nodes,
    fun table => ?_, fun table => ?_, hnumbered.pairwise_alias_ne⟩
  · rw [hsplit.of_append.aliases_eq_range', hbuilt.countP_take_nodes]
  · rw [hsplit.aliases_drop_eq_range', hbuilt.countP_take_nodes]

/-- The parcels of the customers of orders of customers. Orders are joined twice: the first time by
the author, and then by a bridge. -/
def parcelsOfOrderingCustomers : Join :=
  ⟨⟨"shop", "customers"⟩, [], .all, none, [],
    [⟨⟨"shop", "orders"⟩, [], .all, none, [],
      [⟨⟨"shop", "customers"⟩, [], .all, none, [],
        [⟨⟨"shop", "parcels"⟩, [], .all, none, [], []⟩]⟩]⟩]⟩

theorem numberedInOrder_parcelsOfOrderingCustomers :
    ∃ tree, parcelsOfOrderingCustomers.normalize shop
        (JoinGraph.ofCatalog (fun _ _ => (0 : Nat)) shop []) = .ok tree ∧
      tree.nodes.map (fun node => (node.joinAlias, node.bridge)) =
        [("shop__customers__1", false), ("shop__orders__1", false), ("shop__customers__2", false),
          ("shop__parcels__1", false), ("shop__orders__2", true)] ∧
      tree.NumberedInOrder parcelsOfOrderingCustomers := by
  have haliases : (parcelsOfOrderingCustomers.normalize shop
      (JoinGraph.ofCatalog (fun _ _ => (0 : Nat)) shop [])).map
      (fun tree => tree.nodes.map fun node => (node.joinAlias, node.bridge)) =
      .ok [("shop__customers__1", false), ("shop__orders__1", false),
        ("shop__customers__2", false), ("shop__parcels__1", false), ("shop__orders__2", true)] := by
    decide +kernel
  obtain ⟨tree, htree, hall⟩ := map_eq_ok_iff.mp haliases
  exact ⟨tree, htree, hall, Join.numberedInOrder_of_normalize _ _ _ _ htree⟩

end JoinPlan
