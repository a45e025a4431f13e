import JoinPlan.Proofs.AliasNumbers
import JoinPlan.Proofs.RowParts

/-!
# Whether output names are distinct

Rows are keyed by the names of their columns, each made up of the alias of a join and the name of
one of its columns. Where aliases differ and no table has a column twice, the columns of a statement
differ, but their names need not: an alias may go on from another one, and then a column name that
begins with what it adds makes up for the difference. So `items__1__price` of the join
`shop__orders__1` is called as `price` of the join `shop__orders__1__items__1`, and a row that is
keyed by names holds one value for both.

This is the only way in which names can coincide, for no alias ends in an underscore. In particular
the joins of one table never share a name, as their aliases differ only in the numbers at the end.

## Main definitions

* `QualifiedColumn.Mimics`: a column name makes up for what another alias adds.
* `Catalog.ColumnsDiffer`: no table has two columns of a name.

## Main results

* `QualifiedColumn.outputName_eq_iff`: when columns of joins share a name.
* `JoinTree.nodup_outputs`: the columns of a statement differ.
* `Query.nodup_outputNames_iff`: when the names of a statement differ.
* `not_nodup_outputNames_itemPrices`: they need not.
-/

namespace JoinPlan

/-! ### Names that coincide -/

/-- A column has the name of one under another alias: that alias goes on from its own, and the name
of the column makes up for the difference. -/
def QualifiedColumn.Mimics (a b : QualifiedColumn) : Prop :=
  ∃ rest, b.qualifier = a.qualifier ++ "__" ++ rest ∧ a.column = rest ++ "__" ++ b.column

/-- Only a name with an underscore can make up for anything. -/
theorem QualifiedColumn.Mimics.underscore_mem {a b : QualifiedColumn} (h : a.Mimics b) :
    '_' ∈ a.column.toList := by
  obtain ⟨rest, -, hcolumn⟩ := h
  simp [hcolumn]

theorem QualifiedColumn.Mimics.outputName_eq {a b : QualifiedColumn} (h : a.Mimics b) :
    a.outputName = b.outputName := by
  obtain ⟨rest, hqualifier, hcolumn⟩ := h
  simp only [QualifiedColumn.outputName, JoinPlan.outputName, hqualifier, hcolumn,
    String.append_assoc]

theorem QualifiedColumn.not_mimics_self (a : QualifiedColumn) : ¬ a.Mimics a := by
  rintro ⟨rest, hqualifier, -⟩
  have hlength := congrArg String.length hqualifier
  have htwo : "__".length = 2 := rfl
  rw [String.length_append, String.length_append] at hlength
  omega

/-- An alias ends in a digit. -/
theorem getLast?_numberedAlias_ne (table : TableRef) (n : Nat) :
    (numberedAlias table n).toList.getLast? ≠ some '_' := by
  have hsome : (toString n).toList.getLast? ≠ none := by
    simp
  obtain ⟨last, hlast⟩ := Option.ne_none_iff_exists'.mp hsome
  rw [numberedAlias, String.toList_append, List.getLast?_append, hlast, Option.some_or, ne_eq,
    Option.some_inj]
  rintro rfl
  exact underscore_notMem_toString n (List.mem_of_getLast? hlast)

/-- Where the first of two texts ends at two underscores, the second one has ended there, too, or
goes on behind them. -/
theorem underscores_cases {xs more cs ds : List Char} (hends : (xs ++ more).getLast? ≠ some '_')
    (h : '_' :: '_' :: cs = more ++ '_' :: '_' :: ds) :
    more = [] ∧ cs = ds ∨ ∃ rest, more = '_' :: '_' :: rest ∧ cs = rest ++ '_' :: '_' :: ds := by
  match more, h with
  | [], h =>
    simp only [List.nil_append, List.cons.injEq, true_and] at h
    exact .inl ⟨rfl, h⟩
  | [c], h =>
    obtain ⟨rfl, -⟩ := List.cons.inj h
    exact absurd List.getLast?_concat hends
  | c :: c' :: rest, h =>
    simp only [List.cons_append, List.cons.injEq] at h
    obtain ⟨rfl, rfl, rfl⟩ := h
    exact .inr ⟨rest, rfl, rfl⟩

namespace QualifiedColumn

variable {a b : QualifiedColumn}

theorem eq_or_mimics (hb : b.qualifier.toList.getLast? ≠ some '_') {more : List Char}
    (hqualifier : b.qualifier.toList = a.qualifier.toList ++ more)
    (hcolumn : '_' :: '_' :: a.column.toList = more ++ '_' :: '_' :: b.column.toList) :
    a = b ∨ a.Mimics b := by
  rw [hqualifier] at hb
  rcases underscores_cases hb hcolumn with ⟨rfl, hsame⟩ | ⟨rest, rfl, hlonger⟩
  · rw [List.append_nil] at hqualifier
    exact .inl (by rw [QualifiedColumn.mk.injEq, ← String.toList_inj, ← String.toList_inj]
                   exact ⟨hqualifier.symm, hsame⟩)
  · refine .inr ⟨String.ofList rest, ?_, ?_⟩
    · rw [← String.toList_inj, hqualifier]
      simp
    · rw [← String.toList_inj, hlonger]
      simp

/-- **When columns of joins share a name**: they are the same, or one of them mimics the other. -/
theorem outputName_eq_iff (ha : a.qualifier.toList.getLast? ≠ some '_')
    (hb : b.qualifier.toList.getLast? ≠ some '_') :
    a.outputName = b.outputName ↔ a = b ∨ a.Mimics b ∨ b.Mimics a := by
  constructor
  · intro h
    have hlists : a.qualifier.toList ++ '_' :: '_' :: a.column.toList =
        b.qualifier.toList ++ '_' :: '_' :: b.column.toList := by
      simpa [outputName, JoinPlan.outputName] using congrArg String.toList h
    rcases List.append_eq_append_iff.mp hlists with ⟨more, hmore, hrest⟩ | ⟨more, hmore, hrest⟩
    · exact (eq_or_mimics hb hmore hrest).imp_right .inl
    · exact (eq_or_mimics ha hmore hrest).imp Eq.symm .inr
  · rintro (rfl | h | h)
    · rfl
    · exact h.outputName_eq
    · exact h.outputName_eq.symm

/-- Different columns have different names if and only if none mimics another. -/
theorem nodup_map_outputName_iff {columns : List QualifiedColumn} (hdiffer : columns.Nodup)
    (hends : ∀ column ∈ columns, column.qualifier.toList.getLast? ≠ some '_') :
    (columns.map outputName).Nodup ↔ ∀ a ∈ columns, ∀ b ∈ columns, ¬ a.Mimics b := by
  rw [List.nodup_map_iff_inj_on hdiffer]
  constructor
  · intro hinj a ha b hb hmimics
    cases hinj a ha b hb hmimics.outputName_eq
    exact a.not_mimics_self hmimics
  · intro hnone a ha b hb hsame
    rcases (outputName_eq_iff (hends a ha) (hends b hb)).mp hsame with heq | hmimics | hmimics
    · exact heq
    · exact absurd hmimics (hnone a ha b hb)
    · exact absurd hmimics (hnone b hb a ha)

end QualifiedColumn

/-- No alias of a table goes on from another one of the same table. -/
theorem not_mimics_numberedAlias {table : TableRef} {m n : Nat} {c d : String} :
    ¬ QualifiedColumn.Mimics ⟨numberedAlias table m, c⟩ ⟨numberedAlias table n, d⟩ := by
  rintro ⟨rest, hqualifier, -⟩
  have hnumbers : (toString n).toList = (toString m).toList ++ '_' :: '_' :: rest.toList := by
    simpa [numberedAlias] using congrArg String.toList hqualifier
  exact underscore_notMem_toString n (hnumbers ▸ List.mem_append_right _ List.mem_cons_self)

/-- **Joins of one table never share a name**, as their aliases differ in the number alone. -/
theorem outputName_numberedAlias_inj {table : TableRef} {m n : Nat} {c d : String} :
    outputName (numberedAlias table m) c = outputName (numberedAlias table n) d ↔
      m = n ∧ c = d := by
  have hsame := QualifiedColumn.outputName_eq_iff (a := ⟨numberedAlias table m, c⟩)
    (b := ⟨numberedAlias table n, d⟩) (getLast?_numberedAlias_ne table m)
    (getLast?_numberedAlias_ne table n)
  rw [or_iff_left not_mimics_numberedAlias, or_iff_left not_mimics_numberedAlias,
    QualifiedColumn.mk.injEq, numberedAlias_inj, and_iff_right rfl] at hsame
  exact hsame

/-! ### Columns of a statement -/

/-- No table has two columns of a name. -/
def Catalog.ColumnsDiffer (catalog : Catalog) : Prop :=
  ∀ entry ∈ catalog.tables, entry.2.columnNames.Nodup

namespace JoinTree

variable {catalog : Catalog} {tree : JoinTree}

theorem nodup_outputs_of_nodeClauses (hcolumns : catalog.ColumnsDiffer) {node : JoinNode}
    {clauses : NodeClauses} (h : tree.nodeClauses catalog node = .ok clauses) :
    clauses.outputs.Nodup := by
  obtain ⟨table, _, htable, -, -, -, rfl⟩ := nodeClauses_eq_ok_iff.mp h
  have hnames : ((table.selected node.select).map (·.name)).Nodup :=
    (hcolumns _ (Catalog.mem_tables_of_findTable htable)).sublist (List.filter_sublist.map _)
  have hqualified := hnames.map (f := (⟨node.joinAlias, ·⟩ : String → QualifiedColumn))
    fun _ _ hsame => (QualifiedColumn.mk.inj hsame).2
  rwa [List.map_map] at hqualified

/-- **The columns of a statement differ**, since each is qualified by its own join. -/
theorem nodup_outputs (hcolumns : catalog.ColumnsDiffer) {nodes : List JoinNode}
    (haliases : (nodes.map (·.joinAlias)).Nodup) {clauses : List NodeClauses}
    (h : nodes.mapM (tree.nodeClauses catalog) = .ok clauses) :
    (clauses.flatMap (·.outputs)).Nodup := by
  induction nodes generalizing clauses with
  | nil =>
    cases h
    exact List.nodup_nil
  | cons node rest ih =>
    rw [mapM_eq_ok_iff] at h
    rw [List.map_cons, List.nodup_cons] at haliases
    cases h with
    | cons hfirst hothers =>
      rw [List.flatMap_cons, List.nodup_append]
      refine ⟨nodup_outputs_of_nodeClauses hcolumns hfirst,
        ih haliases.2 (mapM_eq_ok_iff.mpr hothers), ?_⟩
      rintro column hcolumn _ hother rfl
      obtain ⟨contributed, hcontributed, hmem⟩ := List.mem_flatMap.mp hother
      obtain ⟨other, hnode, hclauses⟩ :=
        exists_of_mem_mapM (mapM_eq_ok_iff.mpr hothers) hcontributed
      have hown := ((ownedBy_of_nodeClauses hfirst).outputs column hcolumn).1
      have hsame := ((ownedBy_of_nodeClauses hclauses).outputs column hmem).1
      exact haliases.1 (List.mem_map.mpr ⟨other, hnode, hsame.symm.trans hown⟩)

/-- The columns of a statement are qualified by aliases, which end in digits. -/
theorem getLast?_qualifier_ne (hnumbered : Numbered tree.contents) {statement : Statement}
    (h : tree.statement catalog = .ok statement) {columns : List QualifiedColumn}
    (houtput : statement.output = .columns columns) :
    ∀ column ∈ columns, column.qualifier.toList.getLast? ≠ some '_' := by
  obtain ⟨columns', houtput', hresolved⟩ := (resolved_statement h).output
  cases houtput.symm.trans houtput'
  intro column hcolumn
  obtain ⟨node, hnode, hqualifier, -⟩ := hresolved column hcolumn
  obtain ⟨n, halias⟩ := exists_numberedAlias hnumbered hnode
  rw [hqualifier, halias]
  exact getLast?_numberedAlias_ne node.table n

/-- No two joins of one table share a name. -/
theorem eq_of_outputName_eq (hnumbered : Numbered tree.contents) {a b : JoinNode}
    (ha : a ∈ tree.nodes) (hb : b ∈ tree.nodes) (htable : a.table = b.table) {c d : String}
    (hsame : outputName a.joinAlias c = outputName b.joinAlias d) :
    a.joinAlias = b.joinAlias ∧ c = d := by
  obtain ⟨m, hm⟩ := exists_numberedAlias hnumbered ha
  obtain ⟨n, hn⟩ := exists_numberedAlias hnumbered hb
  rw [hm, hn, htable] at hsame ⊢
  obtain ⟨rfl, hcolumn⟩ := outputName_numberedAlias_inj.mp hsame
  exact ⟨rfl, hcolumn⟩

end JoinTree

/-- **When the output names of a compiled query differ**: whenever none of its columns mimics
another. The joins of one table never share a name. -/
theorem Query.nodup_outputNames_iff (catalog : Catalog) (query : Query) (prepared : Prepared)
    (hcolumns : catalog.ColumnsDiffer) (h : query.prepare catalog = .ok prepared)
    (haliases : (prepared.tree.nodes.map (·.joinAlias)).Nodup) :
    ∃ columns, prepared.statement.output = .columns columns ∧
      ((columns.map QualifiedColumn.outputName).Nodup ↔
        ∀ a ∈ columns, ∀ b ∈ columns, ¬ a.Mimics b) ∧
      ∀ a ∈ prepared.tree.nodes, ∀ b ∈ prepared.tree.nodes, a.table = b.table → ∀ c d,
        outputName a.joinAlias c = outputName b.joinAlias d →
          a.joinAlias = b.joinAlias ∧ c = d := by
  obtain ⟨tree, statement, htree, hstatement, rfl⟩ := prepare_eq_ok_iff.mp h
  have hnumbered := Join.numbered_of_normalize htree
  obtain ⟨placed, authored, bridges, hbuilt⟩ := JoinTree.built_of_normalize htree
  obtain ⟨clauses, base, hclauses, -, -, -, hstatementEq⟩ :=
    JoinTree.statement_eq_ok_iff.mp hstatement
  have houtput : statement.output = .columns (clauses.flatMap (·.outputs)) := by
    rw [hstatementEq]
  have hends := JoinTree.getLast?_qualifier_ne hnumbered hstatement houtput
  have hperm := JoinTree.perm_joinsInOrder hbuilt.linked hbuilt.loose
  have hdiffer := JoinTree.nodup_outputs hcolumns
    ((hperm.map (·.joinAlias)).nodup_iff.mpr haliases) hclauses
  exact ⟨_, houtput, QualifiedColumn.nodup_map_outputName_iff hdiffer hends,
    fun a ha b hb htable c d hsame => JoinTree.eq_of_outputName_eq hnumbered ha hb htable hsame⟩

theorem nodup_outputNames_parcelsOfOrderingCustomers :
    shop.ColumnsDiffer ∧ ∃ prepared columns,
      Query.prepare shop ⟨parcelsOfOrderingCustomers, none⟩ = .ok prepared ∧
      prepared.tree.nodes.map (·.joinAlias) = ["shop__customers__1", "shop__orders__1",
        "shop__customers__2", "shop__parcels__1", "shop__orders__2"] ∧
      prepared.statement.output = .columns columns ∧
      (columns.map QualifiedColumn.outputName).Nodup := by
  have hcolumns : shop.ColumnsDiffer := by
    rw [Catalog.ColumnsDiffer]
    decide +kernel
  have hcompiled : (Query.prepare shop ⟨parcelsOfOrderingCustomers, none⟩).map (fun prepared =>
      (prepared.tree.nodes.map (·.joinAlias), prepared.statement.output)) =
      .ok (["shop__customers__1", "shop__orders__1", "shop__customers__2", "shop__parcels__1",
        "shop__orders__2"],
        .columns [⟨"shop__customers__1", "id"⟩, ⟨"shop__orders__1", "id"⟩,
          ⟨"shop__orders__1", "customer"⟩, ⟨"shop__customers__2", "id"⟩,
          ⟨"shop__parcels__1", "order"⟩]) := by
    decide +kernel
  obtain ⟨prepared, hprepared, hparts⟩ := map_eq_ok_iff.mp hcompiled
  obtain ⟨haliases, houtput⟩ := Prod.mk.inj hparts
  obtain ⟨columns, hcolumns', hiff, -⟩ := Query.nodup_outputNames_iff shop _ prepared hcolumns
    hprepared (by rw [haliases]; decide)
  cases houtput.symm.trans hcolumns'
  refine ⟨hcolumns, prepared, _, hprepared, haliases, houtput, hiff.mpr fun a ha b _ hmimics => ?_⟩
  have hnone : ∀ column ∈ [(⟨"shop__customers__1", "id"⟩ : QualifiedColumn),
      ⟨"shop__orders__1", "id"⟩, ⟨"shop__orders__1", "customer"⟩, ⟨"shop__customers__2", "id"⟩,
      ⟨"shop__parcels__1", "order"⟩], '_' ∉ column.column.toList := by
    decide
  exact hnone a ha hmimics.underscore_mem

/-! ### Names that do coincide -/

/-- Orders as they were exported: with the price of the first item beside them, and with all items
in a table of their own. -/
def exportedShop : Catalog :=
  .assemble
    [⟨⟨"shop", "orders"⟩, "id", "integer", .number, false, true⟩,
      ⟨⟨"shop", "orders"⟩, "items__1__price", "integer", .number, false, false⟩,
      ⟨⟨"shop", "orders__1__items"⟩, "order_id", "integer", .number, false, false⟩,
      ⟨⟨"shop", "orders__1__items"⟩, "price", "integer", .number, false, false⟩]
    [⟨⟨"shop", "orders__1__items"⟩, "order_id", ⟨"shop", "orders"⟩, "id"⟩]

/-- The price of the first item, and those of all items. -/
def itemPrices : Query :=
  ⟨⟨⟨"shop", "orders"⟩, [], .columns ["items__1__price"], none, [],
    [⟨⟨"shop", "orders__1__items"⟩, [], .columns ["price"], none, [], []⟩]⟩, none⟩

/-- **Output names need not differ**, even if aliases do and no table has a column twice. -/
theorem not_nodup_outputNames_itemPrices :
    exportedShop.ColumnsDiffer ∧ ∃ prepared columns,
      itemPrices.prepare exportedShop = .ok prepared ∧
      (prepared.tree.nodes.map (·.joinAlias)).Nodup ∧
      prepared.statement.output = .columns columns ∧
      columns.map QualifiedColumn.outputName =
        ["shop__orders__1__items__1__price", "shop__orders__1__items__1__price"] ∧
      ¬ (columns.map QualifiedColumn.outputName).Nodup := by
  have hcolumns : exportedShop.ColumnsDiffer := by
    rw [Catalog.ColumnsDiffer]
    decide +kernel
  have hcompiled : (itemPrices.prepare exportedShop).map (fun prepared =>
      (prepared.tree.nodes.map (·.joinAlias), prepared.statement.output)) =
      .ok (["shop__orders__1", "shop__orders__1__items__1"],
        .columns [⟨"shop__orders__1", "items__1__price"⟩,
          ⟨"shop__orders__1__items__1", "price"⟩]) := by
    decide +kernel
  obtain ⟨prepared, hprepared, hparts⟩ := map_eq_ok_iff.mp hcompiled
  obtain ⟨haliases, houtput⟩ := Prod.mk.inj hparts
  exact ⟨hcolumns, prepared, _, hprepared, by rw [haliases]; decide, houtput, by decide, by decide⟩

end JoinPlan
