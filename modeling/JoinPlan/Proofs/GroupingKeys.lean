import JoinPlan.Proofs.Compilable
import JoinPlan.Proofs.Traversals

/-!
# Statements group by every primary key

Rows that only differ in a table that selects nothing must not be merged. So a statement groups by
the primary keys of all joins of its tree, bridges among them, and of each join under its own alias.
They come in the order of the joins as these are listed for the caller, and each key in the order of
its table's columns.

## Main definitions

* `Catalog.keyColumns`: the primary key of a table under the name that it has in a statement.
* `Statement.groupClause`: the text of what a statement groups by.
* `Prepared.GroupsByKeys`: a statement groups by the primary keys of all joins.

## Main results

* `JoinTree.flatMap_groupBy`: what joins contribute is the keys of their tables.
* `Query.groupsByKeys_prepare`: compiled queries group by the primary keys of all joins.
-/

namespace JoinPlan

variable {catalog : Catalog} {tree : JoinTree}

/-! ### Keys of joins -/

/-- The primary key of a table, in column order, under the name of the table in a statement. -/
def Catalog.keyColumns (catalog : Catalog) (table : TableRef) (name : String) :
    List QualifiedColumn :=
  match catalog.findTable table with
  | .ok found => found.primaryKey.map fun column => ⟨name, column.name⟩
  | .error _ => []

theorem Catalog.keyColumns_eq {ref : TableRef} {table : Table}
    (h : catalog.findTable ref = .ok table) (name : String) :
    catalog.keyColumns ref name = table.primaryKey.map fun column => ⟨name, column.name⟩ := by
  rw [keyColumns, h]

theorem Catalog.mem_keyColumns_iff {ref : TableRef} {name : String} {column : QualifiedColumn} :
    column ∈ catalog.keyColumns ref name ↔ ∃ table, catalog.findTable ref = .ok table ∧
      ∃ key ∈ table.columns, key.inPrimaryKey = true ∧ column = ⟨name, key.name⟩ := by
  rw [keyColumns]
  cases catalog.findTable ref with
  | error e => simp
  | ok table =>
    simp only [Table.primaryKey, List.mem_map, List.mem_filter, Except.ok.injEq,
      exists_eq_left', and_assoc, eq_comm (a := column)]

namespace JoinTree

/-- **What joins contribute is the keys of their tables**, in the order of the joins. -/
theorem flatMap_groupBy {nodes : List JoinNode} {clauses : List NodeClauses}
    (h : nodes.mapM (tree.nodeClauses catalog) = .ok clauses) :
    clauses.flatMap (·.groupBy) =
      nodes.flatMap fun node => catalog.keyColumns node.table node.joinAlias := by
  rw [List.flatMap_def, List.flatMap_def]
  refine congrArg List.flatten (map_eq_map_of_forall₂ (mapM_eq_ok_iff.mp h) ?_).symm
  intro node contributed hcontributed
  obtain ⟨table, _, htable, -, -, -, rfl⟩ := nodeClauses_eq_ok_iff.mp hcontributed
  exact Catalog.keyColumns_eq htable node.joinAlias

/-- Joins contribute all columns of primary keys, and nothing else. -/
theorem mem_flatMap_groupBy_iff {nodes : List JoinNode} {clauses : List NodeClauses}
    (h : nodes.mapM (tree.nodeClauses catalog) = .ok clauses) {column : QualifiedColumn} :
    column ∈ clauses.flatMap (·.groupBy) ↔ ∃ node ∈ nodes,
      ∃ table, catalog.findTable node.table = .ok table ∧
        ∃ key ∈ table.columns, key.inPrimaryKey = true ∧ column = ⟨node.joinAlias, key.name⟩ := by
  simp only [flatMap_groupBy h, List.mem_flatMap, Catalog.mem_keyColumns_iff]

/-- Only joins of tables that exist contribute anything. -/
theorem exists_findTable_of_mapM {nodes : List JoinNode} {clauses : List NodeClauses}
    (h : nodes.mapM (tree.nodeClauses catalog) = .ok clauses) {node : JoinNode}
    (hnode : node ∈ nodes) : ∃ table, catalog.findTable node.table = .ok table := by
  obtain ⟨contributed, hcontributed⟩ := exists_mapM_eq_ok_iff.mp ⟨clauses, h⟩ node hnode
  obtain ⟨table, _, htable, -⟩ := nodeClauses_eq_ok_iff.mp hcontributed
  exact ⟨table, htable⟩

/-- The flat list has the joins in the order in which the statement goes through them. -/
theorem flatMap_flatten {α : Type} (tree : JoinTree) (f : TableRef → String → List α) :
    tree.flatten.flatMap (fun join => f join.table join.joinAlias) =
      tree.joinsInOrder.flatMap fun node => f node.table node.joinAlias := by
  rw [List.flatMap_def, List.flatMap_def, flatten, joinsInOrder, List.map_filterMap,
    List.map_filterMap]
  refine congrArg List.flatten (List.filterMap_congr fun id _ => ?_)
  rw [Option.map_map]
  rfl

end JoinTree

/-! ### The clause -/

@[simp] theorem renderClause_nil (keyword separator : String) :
    renderClause keyword separator [] = "" :=
  rfl

theorem renderClause_eq_empty_iff {keyword separator : String} (hkeyword : keyword ≠ "")
    {parts : List String} : renderClause keyword separator parts = "" ↔ parts = [] := by
  cases parts with
  | nil => simp
  | cons part rest => simp [renderClause, hkeyword]

/-- The text of what a statement groups by. -/
def Statement.groupClause (s : Statement) : String :=
  renderClause " GROUP BY " ", " (s.groupBy.map QualifiedColumn.text)

/-- A statement is its text without groups and order, then its groups, then its order. -/
theorem Statement.render_eq (s : Statement) :
    s.render = { s with groupBy := [], orderBy := [] : Statement }.render ++ s.groupClause ++
      renderClause " ORDER BY " ", " (s.orderBy.map SortKey.render) := by
  simp only [render, groupClause, List.map_nil, renderClause_nil, String.append_empty]

/-- The statement of a compiled query groups by the primary keys of all joins. -/
structure Prepared.GroupsByKeys (catalog : Catalog) (prepared : Prepared) : Prop where
  /-- The list of joins has every join of the tree once. -/
  joins : (prepared.joinsList.map (·.id)).Perm (List.range prepared.tree.nodes.length)
  entries : ∀ join ∈ prepared.joinsList, ∃ node, prepared.tree.node? join.id = some node ∧
    join.table = node.table ∧ join.joinAlias = node.joinAlias
  /-- The tables of all joins exist. -/
  found : ∀ node ∈ prepared.tree.nodes, ∃ table, catalog.findTable node.table = .ok table
  /-- The statement groups by the primary key of each join, in the order of the list. -/
  keys : prepared.statement.groupBy = prepared.joinsList.flatMap fun join =>
    catalog.keyColumns join.table join.joinAlias
  /-- So it groups by all columns of primary keys of joins, and by nothing else. -/
  mem_iff : ∀ column, column ∈ prepared.statement.groupBy ↔ ∃ node ∈ prepared.tree.nodes,
    ∃ table, catalog.findTable node.table = .ok table ∧
      ∃ key ∈ table.columns, key.inPrimaryKey = true ∧ column = ⟨node.joinAlias, key.name⟩
  /-- The text says so between what is selected and the order. -/
  text : prepared.sql =
    { prepared.statement with groupBy := [], orderBy := [] : Statement }.render ++
      prepared.statement.groupClause ++
      renderClause " ORDER BY " ", " (prepared.statement.orderBy.map SortKey.render)
  /-- It says nothing exactly if no table of a join has a primary key. -/
  absent : prepared.statement.groupClause = "" ↔ ∀ node ∈ prepared.tree.nodes, ∀ table,
    catalog.findTable node.table = .ok table → ∀ key ∈ table.columns, key.inPrimaryKey = false

/-- **Compiled queries group by the primary keys of all joins.** -/
theorem Query.groupsByKeys_prepare (catalog : Catalog) (query : Query) (prepared : Prepared)
    (h : query.prepare catalog = .ok prepared) : prepared.GroupsByKeys catalog := by
  obtain ⟨tree, statement, htree, hstatement, rfl⟩ := prepare_eq_ok_iff.mp h
  obtain ⟨placed, authored, bridges, hbuilt⟩ := JoinTree.built_of_normalize htree
  obtain ⟨clauses, base, hclauses, -, -, -, rfl⟩ := JoinTree.statement_eq_ok_iff.mp hstatement
  have hperm := JoinTree.perm_joinsInOrder hbuilt.linked hbuilt.loose
  have hids := JoinTree.map_id_flatten fun id =>
    (JoinTree.mem_preOrder_iff hbuilt.linked hbuilt.loose).mp
  have hmem : ∀ column, column ∈ clauses.flatMap (·.groupBy) ↔ ∃ node ∈ tree.nodes,
      ∃ table, catalog.findTable node.table = .ok table ∧
        ∃ key ∈ table.columns, key.inPrimaryKey = true ∧ column = ⟨node.joinAlias, key.name⟩ := by
    intro column
    simp only [JoinTree.mem_flatMap_groupBy_iff hclauses, hperm.mem_iff]
  refine ⟨?_, ?_, fun node hnode => ?_, ?_, hmem, Statement.render_eq _, ?_⟩
  · rw [Prepared.joinsList, hids]
    exact JoinTree.perm_preOrder hbuilt.linked hbuilt.loose
  · intro join hjoin
    obtain ⟨node, hnode, hflat⟩ := JoinTree.exists_of_mem_flatten hjoin
    exact ⟨node, hnode, by rw [hflat]; exact ⟨rfl, rfl⟩⟩
  · exact JoinTree.exists_findTable_of_mapM hclauses (hperm.mem_iff.mpr hnode)
  · exact (JoinTree.flatMap_groupBy hclauses).trans (tree.flatMap_flatten catalog.keyColumns).symm
  · rw [Statement.groupClause, renderClause_eq_empty_iff (by decide), List.map_eq_nil_iff,
      List.eq_nil_iff_forall_not_mem]
    constructor
    · intro hnone node hnode table htable key hkey
      rw [← Bool.not_eq_true]
      intro hprimary
      exact hnone _ ((hmem _).mpr ⟨node, hnode, table, htable, key, hkey, hprimary, rfl⟩)
    · intro hnone column hcolumn
      obtain ⟨node, hnode, table, htable, key, hkey, hprimary, -⟩ := (hmem column).mp hcolumn
      rw [hnone node hnode table htable key hkey] at hprimary
      cases hprimary

theorem groupsByKeys_parcelsOfSome :
    ∃ prepared, (parcelsOfSome ["1", "2"]).prepare shop = .ok prepared ∧
      prepared.tree.nodes.map (·.bridge) = [false, false, true] ∧
      prepared.statement.groupClause =
        " GROUP BY shop__customers__1.id, shop__orders__1.id" ∧
      prepared.GroupsByKeys shop := by
  have hcompiled : ((parcelsOfSome ["1", "2"]).prepare shop).map (fun prepared =>
      (prepared.tree.nodes.map (·.bridge), prepared.statement.groupClause)) =
      .ok ([false, false, true], " GROUP BY shop__customers__1.id, shop__orders__1.id") := by
    decide +kernel
  obtain ⟨prepared, hprepared, hparts⟩ := map_eq_ok_iff.mp hcompiled
  obtain ⟨hbridges, hclause⟩ := Prod.ext_iff.mp hparts
  exact ⟨prepared, hprepared, hbridges, hclause, Query.groupsByKeys_prepare _ _ _ hprepared⟩

end JoinPlan
