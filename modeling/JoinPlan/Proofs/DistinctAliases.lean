import JoinPlan.Proofs.Aliases
import JoinPlan.Proofs.Scoping

/-!
# Whether aliases are distinct

The joins of one table are told apart by their numbers. Joins of different tables are told apart by
the names of the tables, but an alias is a text: the underscores that part the schema from the table
may as well be part of either name. So `stock.old__items` and `stock__old.items` have the same
aliases, and a tree in which both are joined has two joins that nothing in a statement tells apart.
This is the only way in which aliases can coincide, for the number of an alias can always be read
off its end.

## Main definitions

* `TableRef.aliasStem`: what the aliases of a table begin with.
* `Statement.sources`: the tables of a statement with their names in it.
* `JoinTree.AliasesDistinct`: an alias stands for one join, and for one table in a statement.

## Main results

* `numberedAlias_inj`: an alias determines its stem and its number.
* `Numbered.pairwise_alias_ne`: joins of one table have different aliases.
* `Numbered.exists_first`: a table that is joined is joined under its first alias.
* `Join.aliasesDistinct_iff_of_normalize`: when aliases are distinct.
* `not_aliasesDistinct_oldItems`: they need not be.
-/

namespace JoinPlan

/-! ### What an alias tells -/

/-- What the aliases of a table begin with. -/
def TableRef.aliasStem (table : TableRef) : String :=
  table.schema ++ "__" ++ table.table

/-- Lists are parted in one way at the last element of a kind. -/
theorem append_cons_inj {α : Type} {xs ys ds es : List α} {c : α} (hd : c ∉ ds) (he : c ∉ es)
    (h : xs ++ c :: ds = ys ++ c :: es) : xs = ys ∧ ds = es := by
  rcases append_cons_eq_append_cons_iff.mp h with hsame | ⟨more, -, rfl⟩ | ⟨more, -, rfl⟩
  · exact hsame
  · exact absurd (List.mem_append_right _ List.mem_cons_self) hd
  · exact absurd (List.mem_append_right _ List.mem_cons_self) he

theorem underscore_notMem_toString (n : Nat) : '_' ∉ (toString n).toList := by
  simp

theorem eq_of_toList_toString {m n : Nat} (h : (toString m).toList = (toString n).toList) :
    m = n := by
  rw [Nat.toString_eq_repr, Nat.toString_eq_repr, Nat.repr_eq_ofList_toDigits,
    Nat.repr_eq_ofList_toDigits, String.toList_ofList, String.toList_ofList] at h
  have hvalues := congrArg (Nat.ofDigitChars 10 · 0) h
  simpa only [Nat.ofDigitChars_toDigits (by decide : 1 < 10) (by decide)] using hvalues

/-- **An alias determines its stem and its number**, but not its table. -/
theorem numberedAlias_inj {a b : TableRef} {m n : Nat} :
    numberedAlias a m = numberedAlias b n ↔ a.aliasStem = b.aliasStem ∧ m = n := by
  have hsplit : ∀ (table : TableRef) (n : Nat), (numberedAlias table n).toList =
      (table.aliasStem.toList ++ ['_']) ++ '_' :: (toString n).toList := by
    intro table n
    simp [numberedAlias, TableRef.aliasStem]
  constructor
  · intro h
    have hlists := congrArg String.toList h
    rw [hsplit, hsplit] at hlists
    obtain ⟨hstems, hnumbers⟩ := append_cons_inj (underscore_notMem_toString m)
      (underscore_notMem_toString n) hlists
    exact ⟨String.toList_inj.mp (List.append_cancel_right hstems),
      eq_of_toList_toString hnumbers⟩
  · rintro ⟨hstems, rfl⟩
    apply String.toList_inj.mp
    rw [hsplit, hsplit, hstems]

/-! ### Aliases in a tree -/

theorem JoinTree.numbered_nodes {tree : JoinTree} (h : Numbered tree.contents) :
    Numbered tree.nodes := by
  intro id node hnode
  have hcontents : tree.contents[id]? = some node.unlinked := by
    rw [JoinTree.getElem?_contents, JoinTree.node?, hnode, Option.map_some]
  have hcount : (tree.contents.take (id + 1)).countP (·.table = node.table) =
      (tree.nodes.take (id + 1)).countP (·.table = node.table) := by
    rw [JoinTree.contents, ← List.map_take, List.countP_map]
    rfl
  rw [← hcount]
  exact h id node.unlinked hcontents

namespace Numbered

variable {nodes : List JoinNode}

/-- **Joins of one table have different aliases**, for the later one has a greater number. -/
theorem pairwise_alias_ne (h : Numbered nodes) :
    nodes.Pairwise fun a b => a.table = b.table → a.joinAlias ≠ b.joinAlias := by
  rw [List.pairwise_iff_getElem]
  intro i j hi hj hlt htable halias
  rw [h i _ (List.getElem?_eq_getElem hi), h j _ (List.getElem?_eq_getElem hj),
    numberedAlias_inj, htable] at halias
  have hupto : ((nodes.take (i + 1)).countP (·.table = nodes[j].table)) ≤
      (nodes.take j).countP (·.table = nodes[j].table) := by
    have hsub := List.take_sublist (i + 1) (nodes.take j)
    rw [List.take_take, Nat.min_eq_left hlt] at hsub
    exact hsub.countP_le
  have hlast : (nodes.take (j + 1)).countP (·.table = nodes[j].table) =
      (nodes.take j).countP (·.table = nodes[j].table) + 1 := by
    rw [List.take_succ_eq_append_getElem hj, List.countP_append]
    simp
  omega

/-- A table that is joined is joined under its first alias. -/
theorem exists_first (h : Numbered nodes) {node : JoinNode} (hmem : node ∈ nodes) :
    ∃ first ∈ nodes, first.table = node.table ∧ first.joinAlias = numberedAlias node.table 1 := by
  obtain ⟨first, hfirst⟩ : ∃ first, nodes.find? (·.table = node.table) = some first :=
    Option.isSome_iff_exists.mp (List.find?_isSome.mpr ⟨node, hmem, by simp⟩)
  obtain ⟨htable, front, rest, rfl, hfront⟩ := List.find?_eq_some_iff_append.mp hfirst
  replace htable : first.table = node.table := by simpa using htable
  have hcount : (front ++ [first]).countP (·.table = first.table) = 1 := by
    rw [List.countP_append, List.countP_eq_zero.mpr (by simpa [htable] using hfront)]
    simp
  have halias := h front.length first (by simp)
  rw [List.take_append, List.take_of_length_le (by simp), Nat.add_sub_cancel_left] at halias
  refine ⟨first, by simp, htable, ?_⟩
  rw [halias, List.take_one, List.head?_cons, Option.toList_some, hcount, htable]

/-- **Aliases are distinct where stems tell tables apart**, and only there. -/
theorem nodup_aliases_iff (h : Numbered nodes) : (nodes.map (·.joinAlias)).Nodup ↔
    ∀ a ∈ nodes, ∀ b ∈ nodes, a.table.aliasStem = b.table.aliasStem → a.table = b.table := by
  constructor
  · intro hnodup a ha b hb hstems
    obtain ⟨first, hfirst, htable, halias⟩ := h.exists_first ha
    obtain ⟨first', hfirst', htable', halias'⟩ := h.exists_first hb
    have hsame : first.joinAlias = first'.joinAlias := by
      rw [halias, halias', numberedAlias_inj]
      exact ⟨hstems, rfl⟩
    rw [← htable, ← htable', List.inj_on_of_nodup_map hnodup hfirst hfirst' hsame]
  · intro hstems
    rw [List.Nodup, List.pairwise_map]
    refine h.pairwise_alias_ne.imp_of_mem fun {a b} ha hb hne halias => ?_
    obtain ⟨i, hi⟩ := List.getElem?_of_mem ha
    obtain ⟨j, hj⟩ := List.getElem?_of_mem hb
    have htexts := halias
    rw [h i a hi, h j b hj, numberedAlias_inj] at htexts
    exact hne (hstems a ha b hb htexts.1) halias

end Numbered

/-! ### Aliases in a statement -/

/-- The tables of a statement with their names in it. -/
def Statement.sources (statement : Statement) : List (TableRef × Option String) :=
  (statement.table, statement.joinAlias) ::
    statement.joins.map fun clause => (clause.table, clause.joinAlias)

/-- What a statement joins are joins of its tree, under their aliases. -/
theorem JoinTree.exists_of_mem_sources {catalog : Catalog} {tree : JoinTree}
    {statement : Statement} (h : tree.statement catalog = .ok statement)
    {source : TableRef × Option String} (hmem : source ∈ statement.sources) :
    ∃ node ∈ tree.nodes, source = (node.table, some node.joinAlias) := by
  rcases List.mem_cons.mp hmem with rfl | hjoin
  · obtain ⟨clauses, base, -, -, -, hbase, rfl⟩ := statement_eq_ok_iff.mp h
    exact ⟨base, List.mem_of_getElem? hbase, rfl⟩
  · obtain ⟨clause, hclause, rfl⟩ := List.mem_map.mp hjoin
    obtain ⟨above, -, below, hbelow, hmade⟩ := exists_joinClause h hclause
    obtain ⟨on, -, rfl⟩ := JoinNode.joinClause_eq_ok_iff.mp hmade
    exact ⟨below, mem_nodes_of_mem_joinsBelow hbelow, rfl⟩

/-- The tables of a statement are those of the joins, in the order in which these are introduced. -/
theorem JoinTree.forall₂_sources {catalog : Catalog} {tree : JoinTree} (hl : tree.Linked)
    {statement : Statement} (h : tree.statement catalog = .ok statement) :
    List.Forall₂ (fun id source => ∃ node, tree.node? id = some node ∧
      source = (node.table, some node.joinAlias)) tree.introduced statement.sources := by
  have hjoins := forall₂_joins hl h
  obtain ⟨clauses, base, -, -, -, hbase, rfl⟩ := statement_eq_ok_iff.mp h
  refine .cons ⟨base, hbase, rfl⟩ (List.forall₂_map_right_iff.mpr ?_)
  refine hjoins.imp fun id clause hjoined => ?_
  obtain ⟨node, _, above, hnode, -, -, hmade⟩ := hjoined
  obtain ⟨on, -, rfl⟩ := JoinNode.joinClause_eq_ok_iff.mp hmade
  exact ⟨node, hnode, rfl⟩

/-- An alias stands for one join of the tree, by which it is found, and for one table in the
statement. -/
structure JoinTree.AliasesDistinct (catalog : Catalog) (tree : JoinTree) : Prop where
  nodup : (tree.nodes.map (·.joinAlias)).Nodup
  byAlias : ∀ node ∈ tree.nodes, tree.byAlias node.joinAlias = some node
  sources : ∀ statement, tree.statement catalog = .ok statement →
    ∀ a ∈ statement.sources, ∀ b ∈ statement.sources, a.2 = b.2 → a.1 = b.1

theorem JoinTree.aliasesDistinct_of_nodup {catalog : Catalog} {tree : JoinTree}
    (h : (tree.nodes.map (·.joinAlias)).Nodup) : tree.AliasesDistinct catalog where
  nodup := h
  byAlias := fun node hnode => find?_eq_some_of_nodup h hnode
  sources := by
    intro statement hstatement a ha b hb hsame
    obtain ⟨node, hnode, rfl⟩ := exists_of_mem_sources hstatement ha
    obtain ⟨other, hother, rfl⟩ := exists_of_mem_sources hstatement hb
    rw [List.inj_on_of_nodup_map h hnode hother (Option.some.inj hsame)]

/-- **When the aliases of a canonical tree are distinct:** whenever two of its tables whose names
come to the same text with underscores between schema and table are the same table. -/
theorem Join.aliasesDistinct_iff_of_normalize {P : Type} [Penalty P] (catalog : Catalog)
    (graph : JoinGraph P) (base : Join) (tree : JoinTree)
    (h : base.normalize catalog graph = .ok tree) :
    tree.AliasesDistinct catalog ↔ ∀ a ∈ tree.nodes, ∀ b ∈ tree.nodes,
      a.table.aliasStem = b.table.aliasStem → a.table = b.table := by
  rw [← (JoinTree.numbered_nodes (Join.numbered_of_normalize h)).nodup_aliases_iff]
  exact ⟨fun hdistinct => hdistinct.nodup, JoinTree.aliasesDistinct_of_nodup⟩

theorem aliasesDistinct_parcelsOfCustomers :
    ∃ tree, parcelsOfCustomers.normalize shop (JoinGraph.ofCatalog (fun _ _ => (0 : Nat)) shop []) =
        .ok tree ∧
      tree.nodes.length = 3 ∧ tree.AliasesDistinct shop := by
  have htables : (parcelsOfCustomers.normalize shop
      (JoinGraph.ofCatalog (fun _ _ => (0 : Nat)) shop [])).map
      (fun tree => tree.nodes.map (·.table)) =
      .ok [⟨"shop", "customers"⟩, ⟨"shop", "parcels"⟩, ⟨"shop", "orders"⟩] := by
    decide +kernel
  obtain ⟨tree, htree, hnames⟩ := map_eq_ok_iff.mp htables
  have hlength : tree.nodes.length = 3 := by
    simpa using congrArg List.length hnames
  refine ⟨tree, htree, hlength,
    (Join.aliasesDistinct_iff_of_normalize shop _ _ tree htree).mpr fun a ha b hb => ?_⟩
  have hall : ∀ x ∈ tree.nodes.map (·.table), ∀ y ∈ tree.nodes.map (·.table),
      x.aliasStem = y.aliasStem → x = y := by
    rw [hnames]
    decide
  exact hall a.table (List.mem_map_of_mem ha) b.table (List.mem_map_of_mem hb)

/-! ### Aliases that coincide -/

/-- A stock whose items were moved to another schema, where they refer to what they were before. -/
def movedStock : Catalog :=
  .assemble
    [⟨⟨"stock", "old__items"⟩, "id", "integer", .number, false, true⟩,
      ⟨⟨"stock__old", "items"⟩, "item", "integer", .number, false, false⟩]
    [⟨⟨"stock__old", "items"⟩, "item", ⟨"stock", "old__items"⟩, "id"⟩]

/-- The items with what became of them. -/
def oldItems : Join :=
  ⟨⟨"stock", "old__items"⟩, [], .all, none, [],
    [⟨⟨"stock__old", "items"⟩, [], .all, none, [], []⟩]⟩

/-- **Aliases need not be distinct.** -/
theorem not_aliasesDistinct_oldItems :
    ∃ tree, oldItems.normalize movedStock
        (JoinGraph.ofCatalog (fun _ _ => (0 : Nat)) movedStock []) = .ok tree ∧
      tree.nodes.map (·.joinAlias) = ["stock__old__items__1", "stock__old__items__1"] ∧
      ¬ tree.AliasesDistinct movedStock := by
  have haliases : (oldItems.normalize movedStock
      (JoinGraph.ofCatalog (fun _ _ => (0 : Nat)) movedStock [])).map
      (fun tree => tree.nodes.map (·.joinAlias)) =
      .ok ["stock__old__items__1", "stock__old__items__1"] := by
    decide +kernel
  obtain ⟨tree, htree, hsame⟩ := map_eq_ok_iff.mp haliases
  refine ⟨tree, htree, hsame, fun hdistinct => ?_⟩
  have hnodup := hdistinct.nodup
  rw [hsame] at hnodup
  exact absurd hnodup (by decide)

end JoinPlan
