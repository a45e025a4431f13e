import JoinPlan.Proofs.Outcome
import JoinPlan.Sql.Compile
import JoinPlan.Sql.Related

/-!
# What a statement is made of

A statement is put together from what each join contributes, after all checks have passed. Here
every step is taken apart once: when it succeeds, and what it returns then.

## Main definitions

* `Table.HasAll`: a table has all columns of a list.
* `Filter.columns`: the columns that a filter names.
* `JoinNode.testedColumns`, `JoinNode.sortedColumns`: the columns that a join's rows are tested and
  sorted by.
* `DefinitelyOrdered`: priorities put sort terms in a definite order.

## Main results

* `JoinTree.nodeClauses_eq_ok_iff`: what one join contributes.
* `JoinTree.statement_eq_ok_iff`: the statement of a tree.
* `Query.prepare_eq_ok_iff`: what a query is compiled to.
* `checkPriorities_eq_ok_iff`: which sort keys are in order.
* `Catalog.equate_cases`: whose key joins two tables.
* `Catalog.relatedRows_eq_ok_iff`: the statement for the rows related to a row.
-/

namespace JoinPlan

variable {catalog : Catalog} {tree : JoinTree} {node : JoinNode} {table : Table}

/-! ### One join -/

/-- The columns of a filter, in the order of its text. -/
def Filter.columns : Filter → List QualifiedColumn
  | condition qualifier c => c.columns.map (⟨qualifier, ·⟩)
  | equals column _ => [column]
  | isNull column => [column]

/-- The table has every column of a list. -/
def Table.HasAll (table : Table) (names : List String) : Prop :=
  ∀ name ∈ names, table.hasColumn name = true

namespace JoinNode

/-- The columns that the rows of a join are tested by. -/
def testedColumns (node : JoinNode) : List String :=
  node.condition.toList.flatMap Condition.columns

/-- The columns that the rows of a join are sorted by. -/
def sortedColumns (node : JoinNode) : List String :=
  node.orderBy.map (·.column)

theorem filters_eq_ok_iff {filters : List Filter} :
    node.filters table = .ok filters ↔ table.HasAll node.testedColumns ∧
      filters = node.condition.toList.map (Filter.condition node.joinAlias) := by
  rw [JoinNode.filters, testedColumns]
  cases hcondition : node.condition with
  | none =>
    constructor
    · rintro ⟨⟩
      exact ⟨by simp [Table.HasAll], rfl⟩
    · rintro ⟨-, rfl⟩
      rfl
  | some condition =>
    rw [Option.toList_some, List.flatMap_singleton, List.map_singleton, Table.HasAll]
    constructor
    · intro h
      obtain ⟨_, hcheck, h⟩ := bind_eq_ok_iff.mp h
      cases h
      exact ⟨Condition.check_eq_ok_iff.mp hcheck, rfl⟩
    · rintro ⟨hcolumns, rfl⟩
      exact bind_eq_ok_iff.mpr ⟨(), Condition.check_eq_ok_iff.mpr hcolumns, rfl⟩

/-- The key of a sort term of a join. -/
def sortKey (node : JoinNode) (term : SortTerm) : SortKey :=
  ⟨⟨node.joinAlias, term.column⟩, term.direction, term.priority⟩

theorem sortKeys_eq_ok_iff {keys : List SortKey} :
    node.sortKeys table = .ok keys ↔ table.HasAll node.sortedColumns ∧
      keys = node.orderBy.map node.sortKey := by
  rw [JoinNode.sortKeys, sortedColumns, Table.HasAll, List.forall_mem_map]
  exact mapM_ite_eq_ok_iff

theorem joinClause_eq_ok_iff {below : JoinNode} {clause : JoinClause} :
    node.joinClause catalog below = .ok clause ↔
      ∃ on, catalog.equate node.table node.joinAlias below.table below.joinAlias = .ok on ∧
        clause = ⟨below.table, some below.joinAlias, on⟩ := by
  rw [JoinNode.joinClause]
  simp only [bind_eq_ok_iff, pure_eq_ok_iff, eq_comm (b := clause)]

end JoinNode

/-- The joins that stand right below a join. -/
def JoinTree.joinsBelow (tree : JoinTree) (node : JoinNode) : List JoinNode :=
  node.children.filterMap tree.node?

theorem JoinTree.mem_nodes_of_mem_joinsBelow {below : JoinNode}
    (h : below ∈ tree.joinsBelow node) : below ∈ tree.nodes := by
  obtain ⟨child, -, hchild⟩ := List.mem_filterMap.mp h
  exact List.mem_of_getElem? hchild

theorem JoinTree.nodeClauses_eq_ok_iff {clauses : NodeClauses} :
    tree.nodeClauses catalog node = .ok clauses ↔
      ∃ table joins, catalog.findTable node.table = .ok table ∧
        table.HasAll node.testedColumns ∧ table.HasAll node.sortedColumns ∧
        (tree.joinsBelow node).mapM (node.joinClause catalog) = .ok joins ∧
        clauses =
          { outputs := (table.selected node.select).map fun column => ⟨node.joinAlias, column.name⟩
            filters := node.condition.toList.map (Filter.condition node.joinAlias)
            sortKeys := node.orderBy.map node.sortKey
            joins
            groupBy := table.primaryKey.map fun column => ⟨node.joinAlias, column.name⟩ } := by
  rw [JoinTree.nodeClauses]
  simp only [bind_eq_ok_iff, pure_eq_ok_iff, JoinNode.filters_eq_ok_iff,
    JoinNode.sortKeys_eq_ok_iff, joinsBelow]
  constructor
  · rintro ⟨table, htable, _, ⟨htested, rfl⟩, _, ⟨hsorted, rfl⟩, joins, hjoins, rfl⟩
    exact ⟨table, joins, htable, htested, hsorted, hjoins, rfl⟩
  · rintro ⟨table, joins, htable, htested, hsorted, hjoins, rfl⟩
    exact ⟨table, htable, _, ⟨htested, rfl⟩, _, ⟨hsorted, rfl⟩, joins, hjoins, rfl⟩

/-! ### All joins -/

theorem JoinTree.statement_eq_ok_iff {statement : Statement} :
    tree.statement catalog = .ok statement ↔
      ∃ clauses base, tree.joinsInOrder.mapM (tree.nodeClauses catalog) = .ok clauses ∧
        clauses.flatMap (·.outputs) ≠ [] ∧ checkPriorities (clauses.flatMap (·.sortKeys)) = .ok () ∧
        tree.node? root = some base ∧
        statement =
          { output := .columns (clauses.flatMap (·.outputs))
            table := base.table
            joinAlias := some base.joinAlias
            joins := clauses.flatMap (·.joins)
            filters := clauses.flatMap (·.filters)
            groupBy := clauses.flatMap (·.groupBy)
            orderBy := sortByPriority (clauses.flatMap (·.sortKeys)) } := by
  rw [JoinTree.statement, bind_eq_ok_iff]
  constructor
  · rintro ⟨clauses, hclauses, h⟩
    dsimp only at h
    split at h
    · cases h
    · rename_i hne
      obtain ⟨_, hpriorities, h⟩ := bind_eq_ok_iff.mp h
      split at h
      · cases h
      · rename_i base hbase
        cases h
        exact ⟨clauses, base, hclauses, by simpa using hne, hpriorities, hbase, rfl⟩
  · rintro ⟨clauses, base, hclauses, hne, hpriorities, hbase, rfl⟩
    refine ⟨clauses, hclauses, ?_⟩
    dsimp only
    rw [if_neg (by simpa using hne)]
    refine bind_eq_ok_iff.mpr ⟨(), hpriorities, ?_⟩
    rw [hbase]
    rfl

/-- A query is compiled by way of its canonical tree. -/
theorem Query.prepare_eq_ok_iff {query : Query} {prepared : Prepared} :
    query.prepare catalog = .ok prepared ↔
      ∃ tree statement, query.base.normalize catalog (JoinGraph.ofNames catalog []) = .ok tree ∧
        tree.statement catalog = .ok statement ∧ prepared = ⟨statement, tree, query.limit⟩ := by
  rw [Query.prepare]
  simp only [bind_eq_ok_iff, pure_eq_ok_iff, exists_and_left, eq_comm (b := prepared)]

/-! ### Priorities -/

/-- A lone term is in order. Several are if each has a priority and no two have the same. -/
def DefinitelyOrdered (priorities : List (Option Nat)) : Prop :=
  priorities.length ≤ 1 ∨ (∀ priority ∈ priorities, priority.isSome = true) ∧ priorities.Nodup

theorem checkDistinct_eq_ok_iff {seen : List Nat} {keys : List SortKey} :
    checkDistinct seen keys = .ok () ↔
      (∀ key ∈ keys, key.priority.isSome = true) ∧ (keys.map (·.priority)).Nodup ∧
        ∀ key ∈ keys, ∀ n ∈ seen, key.priority ≠ some n := by
  induction keys generalizing seen with
  | nil => simp [checkDistinct]
  | cons key rest ih =>
    rw [checkDistinct]
    cases hkey : key.priority with
    | none => simp [hkey]
    | some n =>
      simp only [List.contains_iff_mem]
      split_ifs with hseen
      · refine iff_of_false nofun ?_
        rintro ⟨-, -, hall⟩
        exact hall key List.mem_cons_self n hseen hkey
      · rw [ih]
        simp only [List.forall_mem_cons, hkey, Option.isSome_some, true_and, List.map_cons,
          List.nodup_cons, List.mem_map, not_exists, not_and, Option.some_inj, ne_eq]
        constructor
        · rintro ⟨hsome, hnodup, hrest⟩
          refine ⟨hsome, ⟨fun other hother => (hrest other hother).1, hnodup⟩, ?_, ?_⟩
          · rintro m hm rfl
            exact hseen hm
          · exact fun other hother => (hrest other hother).2
        · rintro ⟨hsome, ⟨hdiffer, hnodup⟩, -, hrest⟩
          exact ⟨hsome, hnodup, fun other hother => ⟨hdiffer other hother, hrest other hother⟩⟩

theorem checkPriorities_eq_ok_iff {keys : List SortKey} :
    checkPriorities keys = .ok () ↔ DefinitelyOrdered (keys.map (·.priority)) := by
  rw [checkPriorities, DefinitelyOrdered, List.length_map]
  split_ifs with hlone
  · simp [hlone]
  · simp [hlone, checkDistinct_eq_ok_iff]

theorem DefinitelyOrdered.perm {xs ys : List (Option Nat)} (h : DefinitelyOrdered xs)
    (hperm : xs.Perm ys) : DefinitelyOrdered ys := by
  rw [DefinitelyOrdered, ← hperm.length_eq, ← hperm.nodup_iff]
  refine h.imp_right (And.imp_left fun hall priority hmem => ?_)
  exact hall priority (hperm.mem_iff.mpr hmem)

/-! ### Equations -/

/-- A parent's own key joins it to a child, or else a key of the child. -/
theorem Catalog.equate_cases {parent child : TableRef} {parentName childName : String}
    {on : Equation} (h : catalog.equate parent parentName child childName = .ok on) :
    (∃ parentTable column key, catalog.findTable parent = .ok parentTable ∧
      parentTable.keyTo? child = some (column, key) ∧
      on = ⟨⟨childName, key.foreignColumn⟩, ⟨parentName, column.name⟩⟩) ∨
    ∃ childTable column key, catalog.findTable child = .ok childTable ∧
      childTable.keyTo? parent = some (column, key) ∧
      on = ⟨⟨childName, column.name⟩, ⟨parentName, key.foreignColumn⟩⟩ := by
  obtain ⟨parentTable, hparent, h⟩ := bind_eq_ok_iff.mp h
  split at h
  · rename_i column key hkey
    cases h
    exact .inl ⟨parentTable, column, key, hparent, hkey, rfl⟩
  · obtain ⟨childTable, hchild, h⟩ := bind_eq_ok_iff.mp h
    split at h
    · rename_i column key hkey
      cases h
      exact .inr ⟨childTable, column, key, hchild, hkey, rfl⟩
    · cases h

/-! ### Related rows -/

theorem Catalog.findLinkedTable_eq_ok_iff {ref : TableRef} :
    catalog.findLinkedTable ref = .ok table ↔
      catalog.findTable ref = .ok table ∧ table.hasRelationships = true := by
  rw [findLinkedTable, bind_eq_ok_iff]
  constructor
  · rintro ⟨found, hfound, h⟩
    split_ifs at h with hlinked
    cases h
    exact ⟨hfound, hlinked⟩
  · rintro ⟨hfound, hlinked⟩
    exact ⟨table, hfound, if_pos hlinked⟩

/-- The tests that a row comes to. -/
def Row.filters (ref : TableRef) (row : Row) : List Filter :=
  row.map fun entry => rowFilter ⟨ref.text, entry.1⟩ entry.2

theorem rowFilters_eq_ok_iff {ref : TableRef} {row : Row} {filters : List Filter} :
    rowFilters ref table row = .ok filters ↔
      (∀ entry ∈ row, table.hasColumn entry.1 = true) ∧ filters = row.filters ref :=
  mapM_ite_eq_ok_iff

/-- A statement for related rows joins the tables of a path and tests the row it starts from. -/
theorem Catalog.relatedRows_eq_ok_iff {localTable foreignTable : TableRef} {row : Row}
    {statement : Statement} :
    catalog.relatedRows localTable row foreignTable = .ok statement ↔
      ∃ table foreign path joins, catalog.findLinkedTable localTable = .ok table ∧
        catalog.findTable foreignTable = .ok foreign ∧
        catalog.pathBeyond localTable foreignTable = .ok path ∧
        catalog.joinPath localTable path = .ok joins ∧
        (∀ entry ∈ row, table.hasColumn entry.1 = true) ∧
        statement =
          { output := .everyColumn foreignTable.table
            table := localTable
            joinAlias := none
            joins
            filters := row.filters localTable
            groupBy := []
            orderBy := [] } := by
  rw [relatedRows]
  simp only [bind_eq_ok_iff, pure_eq_ok_iff, rowFilters_eq_ok_iff]
  constructor
  · rintro ⟨table, htable, foreign, hforeign, path, hpath, joins, hjoins, _, ⟨hcolumns, rfl⟩, rfl⟩
    exact ⟨table, foreign, path, joins, htable, hforeign, hpath, hjoins, hcolumns, rfl⟩
  · rintro ⟨table, foreign, path, joins, htable, hforeign, hpath, hjoins, hcolumns, rfl⟩
    exact ⟨table, htable, foreign, hforeign, path, hpath, joins, hjoins, _, ⟨hcolumns, rfl⟩, rfl⟩

end JoinPlan
