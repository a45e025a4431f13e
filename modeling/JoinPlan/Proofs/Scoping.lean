import JoinPlan.Proofs.Compilable

/-!
# Statements are well scoped

The joins of a statement are written when their parent is visited, for all its children at once. So
they come in another order than the joins are visited in, but still every join of the tree is
introduced once, and after its parent. An equation only needs the two tables that it joins.

Whatever column a statement names belongs to a join of the tree, under the alias of that join.

## Main definitions

* `Catalog.KeysResolve`: keys lead to columns that exist.
* `JoinNode.Owns`, `JoinTree.Resolves`: a qualified column is one of a join, or of some join.
* `JoinTree.JoinedBy`, `JoinTree.IntroducedBy`: a clause of the statement joins a join to its
  parent, and introduces it.
* `Statement.Resolved`, `Statement.WellScoped`: every column belongs to a join, and every join is
  introduced in time.
* `JoinTree.IntroducedAs`, `Statement.WrittenAs`: the text that introduces a join, and the text of
  a statement that introduces all of them.

## Main results

* `JoinTree.forall₂_joinedBy`: the clauses join the children of the joins to them, in their order.
* `JoinTree.resolved_statement`: columns belong to joins.
* `JoinTree.wellScoped_statement`: statements are well scoped where keys resolve.
* `Statement.WellScoped.writtenAs`: their texts introduce the joins in the same order.
* `Query.wellScoped_prepare_assemble`: so it is with all statements over an assembled catalog.
-/

namespace JoinPlan

variable {P : Type} [Penalty P] {catalog : Catalog} {graph : JoinGraph P} {base : Join}
  {tree : JoinTree} {node : JoinNode}

/-! ### Columns of joins -/

/-- A column that a key of the catalog leads to exists. -/
def Catalog.KeysResolve (catalog : Catalog) : Prop :=
  ∀ ref column, catalog.Lists ref column → ∀ key ∈ column.outbound,
    catalog.HasColumn key.foreignTable key.foreignColumn

/-- The keys of an assembled catalog resolve if the columns that they lead to were reported. -/
theorem Catalog.keysResolve_assemble {columns : List ListedColumn} {keys : List Relationship}
    (hkeys : ∀ key ∈ keys, ∃ column ∈ columns,
      column.table = key.foreignTable ∧ column.name = key.foreignColumn) :
    (assemble columns keys).KeysResolve := by
  intro ref column hlisted outbound hout
  obtain ⟨reported, -, -, rfl⟩ := lists_assemble_iff.mp hlisted
  obtain ⟨key, hkey, rfl⟩ := List.mem_map.mp hout
  exact hasColumn_assemble_iff.mpr (hkeys key (List.mem_of_mem_filter hkey))

theorem Catalog.hasColumn_of_mem {ref : TableRef} {table : Table}
    (htable : catalog.findTable ref = .ok table) {column : Column} (hmem : column ∈ table.columns) :
    catalog.HasColumn ref column.name :=
  ⟨column, lists_iff.mpr ⟨table, mem_tables_of_findTable htable, hmem⟩, rfl⟩

theorem Catalog.hasColumn_of_findTable {ref : TableRef} {table : Table}
    (htable : catalog.findTable ref = .ok table) {name : String}
    (hname : table.hasColumn name = true) : catalog.HasColumn ref name := by
  obtain ⟨column, hcolumn, rfl⟩ := List.mem_map.mp ((table.hasColumn_iff name).mp hname)
  exact hasColumn_of_mem htable hcolumn

/-- A key that is found is one of a listed column. -/
theorem Catalog.lists_of_keyTo? {ref target : TableRef} {table : Table}
    (htable : catalog.findTable ref = .ok table) {column : Column} {key : OutboundKey}
    (hkey : table.keyTo? target = some (column, key)) :
    catalog.Lists ref column ∧ key ∈ column.outbound ∧ key.foreignTable = target := by
  obtain ⟨hcolumn, hout, htarget⟩ := Table.mem_of_keyTo? hkey
  exact ⟨lists_iff.mpr ⟨table, mem_tables_of_findTable htable, hcolumn⟩, hout, htarget⟩

/-- A qualified column is one of a join: it bears the alias of the join, whose table has it. -/
def JoinNode.Owns (catalog : Catalog) (node : JoinNode) (column : QualifiedColumn) : Prop :=
  column.qualifier = node.joinAlias ∧ catalog.HasColumn node.table column.column

/-- A qualified column is one of some join of the tree. -/
def JoinTree.Resolves (catalog : Catalog) (tree : JoinTree) (column : QualifiedColumn) : Prop :=
  ∃ node ∈ tree.nodes, node.Owns catalog column

/-- All columns of what a join contributes are its own, apart from its children's. -/
structure NodeClauses.OwnedBy (catalog : Catalog) (node : JoinNode) (clauses : NodeClauses) :
    Prop where
  outputs : ∀ column ∈ clauses.outputs, node.Owns catalog column
  filters : ∀ filter ∈ clauses.filters, ∀ column ∈ filter.columns, node.Owns catalog column
  sortKeys : ∀ key ∈ clauses.sortKeys, node.Owns catalog key.column
  groupBy : ∀ column ∈ clauses.groupBy, node.Owns catalog column

theorem JoinTree.ownedBy_of_nodeClauses {clauses : NodeClauses}
    (h : tree.nodeClauses catalog node = .ok clauses) : clauses.OwnedBy catalog node := by
  obtain ⟨table, _, htable, htested, hsorted, -, rfl⟩ := nodeClauses_eq_ok_iff.mp h
  constructor
  · intro _ hmem
    obtain ⟨column, hcolumn, rfl⟩ := List.mem_map.mp hmem
    exact ⟨rfl, Catalog.hasColumn_of_mem htable (List.mem_of_mem_filter hcolumn)⟩
  · intro _ hfilter _ hmem
    obtain ⟨condition, hcondition, rfl⟩ := List.mem_map.mp hfilter
    obtain ⟨name, hname, rfl⟩ := List.mem_map.mp hmem
    have htests : name ∈ node.testedColumns := List.mem_flatMap.mpr ⟨condition, hcondition, hname⟩
    exact ⟨rfl, Catalog.hasColumn_of_findTable htable (htested name htests)⟩
  · intro _ hkey
    obtain ⟨term, hterm, rfl⟩ := List.mem_map.mp hkey
    exact ⟨rfl, Catalog.hasColumn_of_findTable htable (hsorted _ (List.mem_map_of_mem hterm))⟩
  · intro _ hmem
    obtain ⟨column, hcolumn, rfl⟩ := List.mem_map.mp hmem
    exact ⟨rfl, Catalog.hasColumn_of_mem htable (List.mem_of_mem_filter hcolumn)⟩

/-! ### Clauses that introduce joins -/

/-- The clause joins a join of the tree to its parent. -/
def JoinTree.JoinedBy (catalog : Catalog) (tree : JoinTree) (id : Nat) (clause : JoinClause) :
    Prop :=
  ∃ node parent above, tree.node? id = some node ∧ tree.parentOf? id = some parent ∧
    tree.node? parent = some above ∧ above.joinClause catalog node = .ok clause

/-- The clause introduces a join of the tree under its alias. It equates a column of the join with
one of its parent. -/
def JoinTree.IntroducedBy (catalog : Catalog) (tree : JoinTree) (id : Nat) (clause : JoinClause) :
    Prop :=
  ∃ node parent above, tree.node? id = some node ∧ tree.parentOf? id = some parent ∧
    tree.node? parent = some above ∧ clause.table = node.table ∧
    clause.joinAlias = some node.joinAlias ∧ node.Owns catalog clause.on.left ∧
    above.Owns catalog clause.on.right

/-- An equation is between a column of the child and one of the parent. -/
theorem JoinNode.owns_of_joinClause (hk : catalog.KeysResolve) {below : JoinNode}
    {clause : JoinClause} (h : node.joinClause catalog below = .ok clause) :
    clause.table = below.table ∧ clause.joinAlias = some below.joinAlias ∧
      below.Owns catalog clause.on.left ∧ node.Owns catalog clause.on.right := by
  obtain ⟨on, hon, rfl⟩ := joinClause_eq_ok_iff.mp h
  refine ⟨rfl, rfl, ?_⟩
  have hends : ∀ {a b : TableRef} {table : Table} {column : Column} {key : OutboundKey},
      catalog.findTable a = .ok table → table.keyTo? b = some (column, key) →
      catalog.HasColumn a column.name ∧ catalog.HasColumn b key.foreignColumn := by
    intro a b table column key htable hkey
    obtain ⟨hlisted, hout, rfl⟩ := Catalog.lists_of_keyTo? htable hkey
    exact ⟨⟨column, hlisted, rfl⟩, hk a column hlisted key hout⟩
  rcases Catalog.equate_cases hon with ⟨table, column, key, htable, hkey, rfl⟩ |
    ⟨table, column, key, htable, hkey, rfl⟩
  · obtain ⟨hlocal, hforeign⟩ := hends htable hkey
    exact ⟨⟨rfl, hforeign⟩, rfl, hlocal⟩
  · obtain ⟨hlocal, hforeign⟩ := hends htable hkey
    exact ⟨⟨rfl, hlocal⟩, rfl, hforeign⟩

namespace JoinTree

theorem JoinedBy.introducedBy (hk : catalog.KeysResolve) {id : Nat} {clause : JoinClause}
    (h : tree.JoinedBy catalog id clause) : tree.IntroducedBy catalog id clause := by
  obtain ⟨node, parent, above, hnode, hparent, habove, hclause⟩ := h
  exact ⟨node, parent, above, hnode, hparent, habove, JoinNode.owns_of_joinClause hk hclause⟩

/-- The clauses of one join are those of its children, in their order. -/
theorem forall₂_joinedBy_children {id : Nat} (hnode : tree.node? id = some node)
    {children : List Nat} (hchildren : ∀ child ∈ children, tree.parentOf? child = some id)
    {clauses : List JoinClause}
    (h : (children.filterMap tree.node?).mapM (node.joinClause catalog) = .ok clauses) :
    List.Forall₂ (tree.JoinedBy catalog) children clauses := by
  induction children generalizing clauses with
  | nil =>
    cases h
    exact .nil
  | cons child rest ih =>
    obtain ⟨hparent, hrest⟩ := List.forall_mem_cons.mp hchildren
    obtain ⟨below, hbelow, -⟩ := Option.bind_eq_some_iff.mp hparent
    rw [List.filterMap_cons_some hbelow, mapM_eq_ok_iff] at h
    cases h with
    | cons hfirst hothers =>
      exact .cons ⟨below, id, node, hbelow, hparent, hnode, hfirst⟩
        (ih hrest (mapM_eq_ok_iff.mpr hothers))

/-- **The clauses of joins join the children of each to it**, in the order of the joins. -/
theorem forall₂_joinedBy (hl : tree.Linked) {ids : List Nat} {clauses : List NodeClauses}
    (h : (ids.filterMap tree.node?).mapM (tree.nodeClauses catalog) = .ok clauses) :
    List.Forall₂ (tree.JoinedBy catalog) (ids.flatMap tree.childrenOf)
      (clauses.flatMap (·.joins)) := by
  induction ids generalizing clauses with
  | nil =>
    cases h
    exact .nil
  | cons id rest ih =>
    cases hnode : tree.node? id with
    | none =>
      rw [List.filterMap_cons_none hnode] at h
      rw [List.flatMap_cons, childrenOf, hnode]
      exact ih h
    | some node =>
      rw [List.filterMap_cons_some hnode, mapM_eq_ok_iff] at h
      cases h with
      | cons hfirst hothers =>
        obtain ⟨_, joins, -, -, -, hjoins, rfl⟩ := nodeClauses_eq_ok_iff.mp hfirst
        rw [List.flatMap_cons, List.flatMap_cons, childrenOf_eq hnode]
        refine List.rel_append ?_ (ih (mapM_eq_ok_iff.mpr hothers))
        exact forall₂_joinedBy_children hnode
          (fun child hchild => (hl.mem_children_iff hnode).mp hchild) hjoins

/-- The clauses of a statement join all joins but the base, in the order in which these are
introduced. -/
theorem forall₂_joins (hl : tree.Linked) {statement : Statement}
    (h : tree.statement catalog = .ok statement) :
    List.Forall₂ (tree.JoinedBy catalog) tree.introduced.tail statement.joins := by
  obtain ⟨clauses, base, hclauses, -, -, -, rfl⟩ := statement_eq_ok_iff.mp h
  exact forall₂_joinedBy hl hclauses

end JoinTree

/-! ### Statements -/

/-- Every column that a statement outputs or that its rows are tested, grouped or sorted by is one
of a join of the tree. -/
structure Statement.Resolved (catalog : Catalog) (tree : JoinTree) (statement : Statement) :
    Prop where
  output : ∃ columns, statement.output = .columns columns ∧
    ∀ column ∈ columns, tree.Resolves catalog column
  filters : ∀ filter ∈ statement.filters, ∀ column ∈ filter.columns, tree.Resolves catalog column
  groupBy : ∀ column ∈ statement.groupBy, tree.Resolves catalog column
  orderBy : ∀ key ∈ statement.orderBy, tree.Resolves catalog key.column

/-- Every join of the tree is introduced once, before anything mentions it, and every column that
the statement names is one of a join. -/
structure Statement.WellScoped (catalog : Catalog) (tree : JoinTree) (statement : Statement) : Prop
    extends statement.Resolved catalog tree where
  /-- The statement starts from the base. -/
  base : ∃ node, tree.node? JoinTree.root = some node ∧ statement.table = node.table ∧
    statement.joinAlias = some node.joinAlias
  /-- Its clauses introduce the other joins, so that each is introduced once and after its parent,
  which is all that its equation mentions besides. -/
  joins : ∃ order, (JoinTree.root :: order).Perm (List.range tree.nodes.length) ∧
    tree.ParentsFirst [JoinTree.root] order ∧
    List.Forall₂ (tree.IntroducedBy catalog) order statement.joins

/-- What a statement is put together from was contributed by some join of the tree. -/
theorem JoinTree.exists_contributed {clauses : List NodeClauses}
    (h : tree.joinsInOrder.mapM (tree.nodeClauses catalog) = .ok clauses) {α : Type}
    {part : NodeClauses → List α} {x : α} (hx : x ∈ clauses.flatMap part) :
    ∃ node ∈ tree.nodes, ∃ contributed,
      tree.nodeClauses catalog node = .ok contributed ∧ x ∈ part contributed := by
  obtain ⟨contributed, hmem, hx⟩ := List.mem_flatMap.mp hx
  obtain ⟨node, hnode, hclauses⟩ := exists_of_mem_mapM h hmem
  obtain ⟨id, -, hid⟩ := List.mem_filterMap.mp hnode
  exact ⟨node, List.mem_of_getElem? hid, contributed, hclauses, hx⟩

/-- A clause of a statement joins some join of the tree to the one above it. -/
theorem JoinTree.exists_joinClause {statement : Statement}
    (h : tree.statement catalog = .ok statement) {clause : JoinClause}
    (hclause : clause ∈ statement.joins) :
    ∃ above ∈ tree.nodes, ∃ below ∈ tree.joinsBelow above,
      above.joinClause catalog below = .ok clause := by
  obtain ⟨clauses, base, hclauses, -, -, -, rfl⟩ := statement_eq_ok_iff.mp h
  obtain ⟨above, habove, contributed, hcontributed, hmem⟩ := exists_contributed hclauses hclause
  obtain ⟨_, joins, -, -, -, hjoins, rfl⟩ := nodeClauses_eq_ok_iff.mp hcontributed
  obtain ⟨below, hbelow, hjoin⟩ := exists_of_mem_mapM hjoins hmem
  exact ⟨above, habove, below, hbelow, hjoin⟩

theorem JoinTree.resolved_statement {statement : Statement}
    (h : tree.statement catalog = .ok statement) : statement.Resolved catalog tree := by
  obtain ⟨clauses, base, hclauses, -, -, -, rfl⟩ := statement_eq_ok_iff.mp h
  refine ⟨⟨_, rfl, ?_⟩, ?_, ?_, ?_⟩
  · intro column hcolumn
    obtain ⟨node, hnode, _, h, hcolumn⟩ := exists_contributed hclauses hcolumn
    exact ⟨node, hnode, (ownedBy_of_nodeClauses h).outputs column hcolumn⟩
  · intro filter hfilter column hcolumn
    obtain ⟨node, hnode, _, h, hfilter⟩ := exists_contributed hclauses hfilter
    exact ⟨node, hnode, (ownedBy_of_nodeClauses h).filters filter hfilter column hcolumn⟩
  · intro column hcolumn
    obtain ⟨node, hnode, _, h, hcolumn⟩ := exists_contributed hclauses hcolumn
    exact ⟨node, hnode, (ownedBy_of_nodeClauses h).groupBy column hcolumn⟩
  · intro key hkey
    obtain ⟨node, hnode, _, h, hkey⟩ := exists_contributed hclauses (List.mem_mergeSort.mp hkey)
    exact ⟨node, hnode, (ownedBy_of_nodeClauses h).sortKeys key hkey⟩

/-- **Statements are well scoped** where keys lead to columns that exist. -/
theorem JoinTree.wellScoped_statement (hk : catalog.KeysResolve) (hl : tree.Linked)
    (hloose : ∀ id, tree.IsLoose id ↔ id = root) {statement : Statement}
    (h : tree.statement catalog = .ok statement) : statement.WellScoped catalog tree := by
  have hresolved := resolved_statement h
  have hjoins := forall₂_joins hl h
  obtain ⟨clauses, base, -, -, -, hbase, rfl⟩ := statement_eq_ok_iff.mp h
  exact ⟨hresolved, ⟨base, hbase, rfl, rfl⟩, _, perm_introduced hl hloose,
    (parentsFirst_introduced hl hloose).2, hjoins.imp fun _ _ h => h.introducedBy hk⟩

/-! ### Texts -/

/-- The text introduces a join of the tree: it joins its table under its alias, and equates one of
its columns with one of its parent's. -/
def JoinTree.IntroducedAs (catalog : Catalog) (tree : JoinTree) (id : Nat) (text : String) :
    Prop :=
  ∃ node parent above column other, tree.node? id = some node ∧ tree.parentOf? id = some parent ∧
    tree.node? parent = some above ∧ catalog.HasColumn node.table column ∧
    catalog.HasColumn above.table other ∧
    text = "INNER JOIN " ++ node.table.text ++ " AS " ++ node.joinAlias ++ " ON " ++
      node.joinAlias ++ "." ++ column ++ " = " ++ above.joinAlias ++ "." ++ other

/-- The text of a statement starts from the base and then introduces every other join of the tree
once, after its parent. Columns are output before the joins, and rows are tested, grouped and
sorted after them. -/
def Statement.WrittenAs (catalog : Catalog) (tree : JoinTree) (statement : Statement)
    (text : String) : Prop :=
  ∃ base order introductions columns, tree.node? JoinTree.root = some base ∧
    (JoinTree.root :: order).Perm (List.range tree.nodes.length) ∧
    tree.ParentsFirst [JoinTree.root] order ∧
    List.Forall₂ (tree.IntroducedAs catalog) order introductions ∧
    statement.output = .columns columns ∧
    text = "SELECT " ++
        ", ".intercalate (columns.map fun column =>
          column.text ++ " AS " ++ outputName column.qualifier column.column) ++
      " FROM " ++ base.table.text ++ " AS " ++ base.joinAlias ++
      String.join (introductions.map (" " ++ ·)) ++
      renderClause " WHERE " " AND " (statement.filters.map Filter.render) ++
      renderClause " GROUP BY " ", " (statement.groupBy.map QualifiedColumn.text) ++
      renderClause " ORDER BY " ", " (statement.orderBy.map SortKey.render)

theorem JoinTree.IntroducedBy.introducedAs {id : Nat} {clause : JoinClause}
    (h : tree.IntroducedBy catalog id clause) : tree.IntroducedAs catalog id clause.render := by
  obtain ⟨node, parent, above, hnode, hparent, habove, htable, halias, ⟨hleft, hcolumn⟩,
    ⟨hright, hother⟩⟩ := h
  refine ⟨node, parent, above, _, _, hnode, hparent, habove, hcolumn, hother, ?_⟩
  rw [JoinClause.render, htable, halias, renderSource, Equation.render, QualifiedColumn.text,
    QualifiedColumn.text, hleft, hright]
  simp only [String.append_assoc]

/-- **The text of a well-scoped statement** introduces the joins as its clauses do. -/
theorem Statement.WellScoped.writtenAs {statement : Statement}
    (h : statement.WellScoped catalog tree) :
    statement.WrittenAs catalog tree statement.render := by
  obtain ⟨base, hbase, htable, halias⟩ := h.base
  obtain ⟨order, hperm, hfirst, hjoins⟩ := h.joins
  obtain ⟨columns, hcolumns, -⟩ := h.output
  refine ⟨base, order, statement.joins.map JoinClause.render, columns, hbase, hperm, hfirst, ?_,
    hcolumns, ?_⟩
  · exact List.forall₂_map_right_iff.mpr (hjoins.imp fun _ _ hjoin => hjoin.introducedAs)
  · rw [Statement.render, hcolumns, htable, halias, Output.render, renderSource, List.map_map]
    simp only [Function.comp_def, String.append_assoc]

/-- **Every statement over an assembled catalog is well scoped, and so is its text**, if the columns
that keys lead to were reported. -/
theorem Query.wellScoped_prepare_assemble (columns : List ListedColumn) (keys : List Relationship)
    (hkeys : ∀ key ∈ keys, ∃ column ∈ columns,
      column.table = key.foreignTable ∧ column.name = key.foreignColumn)
    (query : Query) (prepared : Prepared)
    (h : query.prepare (Catalog.assemble columns keys) = .ok prepared) :
    prepared.statement.WellScoped (Catalog.assemble columns keys) prepared.tree ∧
      prepared.statement.WrittenAs (Catalog.assemble columns keys) prepared.tree prepared.sql := by
  obtain ⟨tree, statement, htree, hstatement, rfl⟩ := prepare_eq_ok_iff.mp h
  obtain ⟨placed, authored, bridges, hbuilt⟩ := JoinTree.built_of_normalize htree
  have hscoped := JoinTree.wellScoped_statement (Catalog.keysResolve_assemble hkeys)
    hbuilt.linked hbuilt.loose hstatement
  exact ⟨hscoped, hscoped.writtenAs⟩

theorem wellScoped_parcelsOfSome :
    (∀ key ∈ shopKeys, ∃ column ∈ shopColumns,
      column.table = key.foreignTable ∧ column.name = key.foreignColumn) ∧
    ∃ prepared, (parcelsOfSome ["1", "2"]).prepare shop = .ok prepared ∧
      prepared.statement.WellScoped shop prepared.tree ∧
      prepared.statement.WrittenAs shop prepared.tree prepared.sql := by
  have hkeys : ∀ key ∈ shopKeys, ∃ column ∈ shopColumns,
      column.table = key.foreignTable ∧ column.name = key.foreignColumn := by
    decide
  obtain ⟨prepared, hprepared⟩ := exists_prepared_parcelsOfSome ["1", "2"]
  exact ⟨hkeys, prepared, hprepared,
    Query.wellScoped_prepare_assemble shopColumns shopKeys hkeys _ _ hprepared⟩

-- orders, which were not asked for, are introduced between customers and parcels
example : ((parcelsOfSome ["1"]).prepare shop).map (·.sql) =
    .ok ("SELECT shop__customers__1.id AS shop__customers__1__id, " ++
      "shop__parcels__1.order AS shop__parcels__1__order " ++
      "FROM shop.customers AS shop__customers__1 " ++
      "INNER JOIN shop.orders AS shop__orders__1 " ++
      "ON shop__orders__1.customer = shop__customers__1.id " ++
      "INNER JOIN shop.parcels AS shop__parcels__1 " ++
      "ON shop__parcels__1.order = shop__orders__1.id " ++
      "WHERE shop__customers__1.id IN ('1') " ++
      "GROUP BY shop__customers__1.id, shop__orders__1.id " ++
      "ORDER BY shop__parcels__1.order ASC") := by
  decide +kernel

end JoinPlan
