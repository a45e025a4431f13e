import JoinPlan.Proofs.CanonicalTree
import JoinPlan.Proofs.MirroredKeys
import JoinPlan.Proofs.PreOrder
import JoinPlan.Proofs.Routability
import JoinPlan.Proofs.StatementParts

/-!
# Which queries compile

A query is refused for many reasons, which come up one phase after another: places, selections,
columns, sort terms. All of them can be told from the query as it is written. Where none applies,
what is added on the way never fails: bridges are joined over keys that exist, and every look-up of
a table that the graph knows succeeds.

## Main definitions

* `Join.namedColumns`: the columns that a join names.
* `Join.Selects`, `Selection.names`: what a selection stands for.
* `Query.Compilable`: what must hold of a query.
* `JoinNode.Realizes`: a join of a canonical tree is an authored one.

## Main results

* `Join.exists_normalize_iff`: which joins have a canonical tree.
* `JoinTree.exists_statement_iff`: which canonical trees have a statement.
* `Query.exists_prepare_iff`: which queries compile, over a catalog whose names stay apart and whose
  keys are recorded at both ends.
* `Query.exists_prepare_assemble_iff`: which queries compile over an assembled catalog.
-/

namespace JoinPlan

/-! ### What is asked of a query -/

namespace Join

/-- The columns that a selection lists one by one. -/
def listedColumns (join : Join) : List String :=
  match join.select with
  | .all => []
  | .columns names => names

/-- The columns that the rows of a join are tested or sorted by. -/
def rowColumns (join : Join) : List String :=
  join.condition.toList.flatMap Condition.columns ++ join.orderBy.map (·.column)

/-- The columns that a join names. -/
def namedColumns (join : Join) : List String :=
  join.listedColumns ++ join.rowColumns

/-- The join selects a column: all columns of its table, or those that are listed. -/
def Selects (catalog : Catalog) (join : Join) (name : String) : Prop :=
  match join.select with
  | .all => catalog.HasColumn join.table name
  | .columns names => name ∈ names

end Join

/-- What must hold of a query for it to compile. -/
structure Query.Compilable (catalog : Catalog) (query : Query) : Prop where
  tables : ∀ join ∈ query.base.preOrder, catalog.HasTable join.table
  /-- A table without keys cannot be the base, not even alone. -/
  linked : catalog.HasKeys query.base.table
  routes : ∀ parent ∈ query.base.preOrder, ∀ child ∈ parent.joins,
    (JoinGraph.ofNames catalog []).Routable parent.table child.table child.via
  siblings : ∀ parent ∈ query.base.preOrder, (parent.joins.map (·.table)).Nodup
  columns : ∀ join ∈ query.base.preOrder, ∀ name ∈ join.namedColumns,
    catalog.HasColumn join.table name
  selects : ∃ join ∈ query.base.preOrder, ∃ name, join.Selects catalog name
  priorities : DefinitelyOrdered ((query.base.preOrder.flatMap (·.orderBy)).map (·.priority))

variable {P : Type} [Penalty P] {catalog : Catalog} {graph : JoinGraph P} {base join : Join}
  {tree : JoinTree} {node : JoinNode}

/-! ### Canonical trees -/

/-- The names that a selection stands for on a table. -/
def Selection.names (table : Table) : Selection → List String
  | all => table.columnNames
  | columns names => names

theorem Join.checkedSelect_eq_ok_iff {select : List String} :
    join.checkedSelect catalog = .ok select ↔
      ∃ table, catalog.findTable join.table = .ok table ∧ table.HasAll join.listedColumns ∧
        select = join.select.names table := by
  rw [checkedSelect, bind_eq_ok_iff]
  refine exists_congr fun table => and_congr_right fun _ => ?_
  rw [listedColumns]
  cases join.select with
  | all =>
    rw [pure_eq_ok_iff, eq_comm]
    simp [Table.HasAll, Selection.names]
  | columns names =>
    have hall : names.find? (!table.hasColumn ·) = none ↔ table.HasAll names := by
      simp [Table.HasAll]
    rw [← hall]
    dsimp only
    cases names.find? (!table.hasColumn ·) with
    | some missing => simp
    | none =>
      rw [pure_eq_ok_iff, eq_comm]
      simp [Selection.names]

theorem Catalog.Unambiguous.hasAll_iff (hu : catalog.Unambiguous) {ref : TableRef} {table : Table}
    (htable : catalog.findTable ref = .ok table) {names : List String} :
    table.HasAll names ↔ ∀ name ∈ names, catalog.HasColumn ref name :=
  forall₂_congr fun _ _ => (hu.hasColumn_iff htable).symm

theorem Join.exists_checkedSelect_iff (hu : catalog.Unambiguous) :
    (∃ select, join.checkedSelect catalog = .ok select) ↔
      catalog.HasTable join.table ∧
        ∀ name ∈ join.listedColumns, catalog.HasColumn join.table name := by
  simp only [checkedSelect_eq_ok_iff]
  constructor
  · rintro ⟨_, table, htable, hall, -⟩
    exact ⟨hu.exists_findTable_iff.mp ⟨table, htable⟩, (hu.hasAll_iff htable).mp hall⟩
  · rintro ⟨hlisted, hcolumns⟩
    obtain ⟨table, htable⟩ := hu.exists_findTable_iff.mpr hlisted
    exact ⟨_, table, htable, (hu.hasAll_iff htable).mpr hcolumns, rfl⟩

/-- A checked selection is what the selection stands for. -/
theorem Join.mem_of_checkedSelect (hu : catalog.Unambiguous) {select : List String}
    (h : join.checkedSelect catalog = .ok select) {name : String} :
    name ∈ select ∧ catalog.HasColumn join.table name ↔ join.Selects catalog name := by
  obtain ⟨table, htable, hall, rfl⟩ := checkedSelect_eq_ok_iff.mp h
  rw [hu.hasAll_iff htable, listedColumns] at hall
  rw [Selects]
  cases hselect : join.select with
  | all =>
    rw [Selection.names, ← Table.hasColumn_iff, ← hu.hasColumn_iff htable, and_self_iff]
  | columns names =>
    rw [hselect] at hall
    exact and_iff_left_of_imp (hall name)

/-- A join has a canonical tree if every join below it has a place and a selection that exists. -/
theorem Join.exists_normalize_iff_forall : (∃ tree, base.normalize catalog graph = .ok tree) ↔
    (∃ linked, catalog.findLinkedTable base.table = .ok linked) ∧
      ∀ join ∈ base.preOrder, join.Placeable catalog graph ∧
        ∃ select, join.checkedSelect catalog = .ok select := by
  have hselects : ∀ placed, base.placed catalog graph = .ok placed →
      ((∃ selects, placed.mapM (fun entry => entry.join.checkedSelect catalog) = .ok selects) ↔
        ∀ join ∈ base.preOrder, ∃ select, join.checkedSelect catalog = .ok select) := by
    intro placed hplaced
    rw [exists_mapM_eq_ok_iff, ← (placement_of_placed hplaced).joins, List.forall_mem_map]
  simp only [normalize, exists_bind_eq_ok_iff, pure_eq_ok_iff, exists_eq', and_true]
  constructor
  · rintro ⟨linked, hlinked, placed, hplaced, hchecked⟩
    have hplaceable := exists_placed_iff.mp ⟨placed, hplaced⟩
    have hchecked := (hselects placed hplaced).mp hchecked
    exact ⟨⟨linked, hlinked⟩, fun join hjoin => ⟨hplaceable join hjoin, hchecked join hjoin⟩⟩
  · rintro ⟨⟨linked, hlinked⟩, hjoins⟩
    obtain ⟨placed, hplaced⟩ := exists_placed_iff.mpr fun join hjoin => (hjoins join hjoin).1
    exact ⟨linked, hlinked, placed, hplaced,
      (hselects placed hplaced).mpr fun join hjoin => (hjoins join hjoin).2⟩

/-- **Which joins have a canonical tree.** -/
theorem Join.exists_normalize_iff (hu : catalog.Unambiguous) :
    (∃ tree, base.normalize catalog graph = .ok tree) ↔
      catalog.HasKeys base.table ∧ ∀ join ∈ base.preOrder, join.Placeable catalog graph ∧
        ∀ name ∈ join.listedColumns, catalog.HasColumn join.table name := by
  rw [exists_normalize_iff_forall, hu.exists_findLinkedTable_iff]
  refine and_congr_right fun _ => forall₂_congr fun join _ => and_congr_right fun hplaceable => ?_
  rw [exists_checkedSelect_iff hu, and_iff_right (hu.exists_findTable_iff.mp hplaceable.table)]

/-- The join stands for an authored one, and selects what that one does. -/
structure JoinNode.Realizes (catalog : Catalog) (node : JoinNode) (entry : AuthoredJoin) : Prop
    extends node.StandsFor entry where
  select : entry.join.checkedSelect catalog = .ok node.select

/-- A canonical tree holds the authored joins in their places, and then bridges. -/
theorem JoinTree.realizes_of_normalize (h : base.normalize catalog graph = .ok tree) :
    ∃ placed authored bridges, base.placed catalog graph = .ok placed ∧
      Built graph base placed authored bridges tree ∧
      List.Forall₂ (JoinNode.Realizes catalog) authored placed := by
  obtain ⟨_, placed, selects, -, hplaced, hselects, rfl⟩ := normalize_eq_ok_iff.mp h
  have hchecked := mapM_eq_ok_iff.mp hselects
  obtain ⟨bridges, hbuilt⟩ := built_ofPlaced (Join.placement_of_placed hplaced) hchecked.length_eq
  refine ⟨placed, _, bridges, hplaced, hbuilt, ?_⟩
  rw [← selects_unattached hchecked.length_eq, List.forall₂_map_right_iff] at hchecked
  have hstands := hbuilt.standsFor
  rw [List.forall₂_iff_get]
  exact ⟨hstands.length_eq, fun i hi hi' => ⟨hstands.get hi hi', hchecked.get hi' hi⟩⟩

/-! ### Statements -/

/-- The columns that the rows of a join are tested or sorted by. -/
def JoinNode.rowColumns (node : JoinNode) : List String :=
  node.testedColumns ++ node.sortedColumns

theorem Table.selected_ne_nil_iff {table : Table} {select : List String} :
    table.selected select ≠ [] ↔ ∃ name ∈ select, table.hasColumn name = true := by
  simp only [selected, ne_eq, List.filter_eq_nil_iff, not_forall, not_not, hasColumn_iff,
    columnNames, List.mem_map, List.contains_iff_mem, exists_prop]
  constructor
  · rintro ⟨column, hcolumn, hname⟩
    exact ⟨column.name, hname, column, hcolumn, rfl⟩
  · rintro ⟨_, hname, column, hcolumn, rfl⟩
    exact ⟨column, hcolumn, hname⟩

/-- The table of the join has the columns that its rows are tested or sorted by. -/
def JoinNode.HasRowColumns (catalog : Catalog) (node : JoinNode) : Prop :=
  ∃ table, catalog.findTable node.table = .ok table ∧ table.HasAll node.rowColumns

/-- The table of the join has a column that it selects. -/
def JoinNode.Outputs (catalog : Catalog) (node : JoinNode) : Prop :=
  ∃ table, catalog.findTable node.table = .ok table ∧ table.selected node.select ≠ []

theorem Catalog.Unambiguous.hasRowColumns_iff (hu : catalog.Unambiguous)
    (hlisted : catalog.HasTable node.table) :
    node.HasRowColumns catalog ↔ ∀ name ∈ node.rowColumns, catalog.HasColumn node.table name := by
  constructor
  · rintro ⟨table, htable, hall⟩
    exact (hu.hasAll_iff htable).mp hall
  · intro hall
    obtain ⟨table, htable⟩ := hu.exists_findTable_iff.mpr hlisted
    exact ⟨table, htable, (hu.hasAll_iff htable).mpr hall⟩

theorem Catalog.Unambiguous.outputs_iff (hu : catalog.Unambiguous) :
    node.Outputs catalog ↔ ∃ name ∈ node.select, catalog.HasColumn node.table name := by
  constructor
  · rintro ⟨table, htable, hselected⟩
    obtain ⟨name, hname, hcolumn⟩ := Table.selected_ne_nil_iff.mp hselected
    exact ⟨name, hname, (hu.hasColumn_iff htable).mpr hcolumn⟩
  · rintro ⟨name, hname, hcolumn⟩
    obtain ⟨table, htable⟩ := hu.exists_findTable_iff.mpr hcolumn.hasTable
    exact ⟨table, htable,
      Table.selected_ne_nil_iff.mpr ⟨name, hname, (hu.hasColumn_iff htable).mp hcolumn⟩⟩

namespace JoinTree

theorem exists_nodeClauses_iff : (∃ clauses, tree.nodeClauses catalog node = .ok clauses) ↔
    node.HasRowColumns catalog ∧
      ∀ below ∈ tree.joinsBelow node, catalog.Joinable node.table below.table := by
  have hclause : ∀ below, (∃ clause, node.joinClause catalog below = .ok clause) ↔
      catalog.Joinable node.table below.table := by
    intro below
    simp only [JoinNode.joinClause_eq_ok_iff]
    constructor
    · rintro ⟨_, on, hon, -⟩
      exact Catalog.joinable_of_equate hon
    · intro hjoin
      obtain ⟨on, hon⟩ := hjoin node.joinAlias below.joinAlias
      exact ⟨_, on, hon, rfl⟩
  simp only [← hclause, ← exists_mapM_eq_ok_iff, nodeClauses_eq_ok_iff, JoinNode.HasRowColumns,
    JoinNode.rowColumns, Table.HasAll, List.forall_mem_append]
  constructor
  · rintro ⟨_, table, joins, htable, htested, hsorted, hjoins, -⟩
    exact ⟨⟨table, htable, htested, hsorted⟩, joins, hjoins⟩
  · rintro ⟨⟨table, htable, htested, hsorted⟩, joins, hjoins⟩
    exact ⟨_, table, joins, htable, htested, hsorted, hjoins, rfl⟩

variable {joins : List JoinNode} {clauses : List NodeClauses}

/-- Joins output something if one of them does. -/
theorem outputs_ne_nil_iff (h : joins.mapM (tree.nodeClauses catalog) = .ok clauses) :
    clauses.flatMap (·.outputs) ≠ [] ↔ ∃ node ∈ joins, node.Outputs catalog := by
  have houtputs : ∀ node contributed, tree.nodeClauses catalog node = .ok contributed →
      (node.Outputs catalog ↔ contributed.outputs ≠ []) := by
    intro node contributed hnode
    obtain ⟨table, _, htable, -, -, -, rfl⟩ := nodeClauses_eq_ok_iff.mp hnode
    rw [ne_eq, List.map_eq_nil_iff, JoinNode.Outputs]
    constructor
    · rintro ⟨_, htable', hselected⟩
      cases htable.symm.trans htable'
      exact hselected
    · exact fun hselected => ⟨table, htable, hselected⟩
  rw [exists_iff_of_forall₂ (mapM_eq_ok_iff.mp h) houtputs]
  simp

/-- The keys of joins are those of their sort terms, in the order of the joins. -/
theorem flatMap_sortKeys (h : joins.mapM (tree.nodeClauses catalog) = .ok clauses) :
    clauses.flatMap (·.sortKeys) = joins.flatMap fun node => node.orderBy.map node.sortKey := by
  rw [List.flatMap_def, List.flatMap_def]
  refine congrArg List.flatten (map_eq_map_of_forall₂ (mapM_eq_ok_iff.mp h) ?_).symm
  intro node contributed hcontributed
  obtain ⟨_, _, -, -, -, -, rfl⟩ := nodeClauses_eq_ok_iff.mp hcontributed
  rfl

theorem priorities_eq (h : joins.mapM (tree.nodeClauses catalog) = .ok clauses) :
    (clauses.flatMap (·.sortKeys)).map (·.priority) =
      (joins.flatMap (·.orderBy)).map (·.priority) := by
  rw [flatMap_sortKeys h, List.map_flatMap, List.map_flatMap]
  simp only [List.map_map]
  rfl

/-- **Which canonical trees have a statement.** Their joins may come in any order. -/
theorem exists_statement_iff (hperm : tree.joinsInOrder.Perm tree.nodes)
    (hroot : (tree.node? root).isSome = true) :
    (∃ statement, tree.statement catalog = .ok statement) ↔
      (∀ node ∈ tree.nodes, node.HasRowColumns catalog ∧
        ∀ below ∈ tree.joinsBelow node, catalog.Joinable node.table below.table) ∧
      (∃ node ∈ tree.nodes, node.Outputs catalog) ∧
      DefinitelyOrdered ((tree.nodes.flatMap (·.orderBy)).map (·.priority)) := by
  have hrows : (∃ clauses, tree.joinsInOrder.mapM (tree.nodeClauses catalog) = .ok clauses) ↔
      ∀ node ∈ tree.nodes, node.HasRowColumns catalog ∧
        ∀ below ∈ tree.joinsBelow node, catalog.Joinable node.table below.table := by
    simp only [exists_mapM_eq_ok_iff, exists_nodeClauses_iff, hperm.mem_iff]
  have hpriorities := (hperm.flatMap_right (·.orderBy)).map (·.priority)
  simp only [statement_eq_ok_iff]
  constructor
  · rintro ⟨_, clauses, base, hclauses, houtputs, hordered, -, -⟩
    refine ⟨hrows.mp ⟨clauses, hclauses⟩, ?_, ?_⟩
    · obtain ⟨node, hnode, hname⟩ := (outputs_ne_nil_iff hclauses).mp houtputs
      exact ⟨node, hperm.mem_iff.mp hnode, hname⟩
    · rw [checkPriorities_eq_ok_iff, priorities_eq hclauses] at hordered
      exact hordered.perm hpriorities
  · rintro ⟨hcolumns, ⟨node, hnode, hname⟩, hordered⟩
    obtain ⟨clauses, hclauses⟩ := hrows.mpr hcolumns
    obtain ⟨base, hbase⟩ := Option.isSome_iff_exists.mp hroot
    refine ⟨_, clauses, base, hclauses, ?_, ?_, hbase, rfl⟩
    · exact (outputs_ne_nil_iff hclauses).mpr ⟨node, hperm.mem_iff.mpr hnode, hname⟩
    · rw [checkPriorities_eq_ok_iff, priorities_eq hclauses]
      exact hordered.perm hpriorities.symm

end JoinTree

/-! ### Canonical trees have statements -/

namespace JoinTree.Built

variable {placed : List AuthoredJoin} {authored bridges : List JoinNode}
  {penalty : TableRef → TableRef → P} {ignored : List TableRef}

/-- Every join, bridges included, joins a table of the catalog. -/
theorem hasTable
    (h : Built (JoinGraph.ofCatalog penalty catalog ignored) base placed authored bridges tree)
    (hbase : catalog.HasTable base.table) (hnode : node ∈ tree.nodes) :
    catalog.HasTable node.table := by
  obtain ⟨id, hid⟩ := List.getElem?_of_mem hnode
  by_cases hzero : id = 0
  · subst hzero
    have htrail := h.trailOf?_zero
    rw [trailOf?_eq hid, Option.some_inj] at htrail
    have hhead := (h.leadsBack hid).head
    rw [htrail, List.head?_cons, Option.some_inj] at hhead
    exact hhead ▸ hbase
  · obtain ⟨_, _, -, -, -, hadjacent⟩ := h.exists_above hzero hid
    have hin := (JoinGraph.adjacent_ofCatalog_iff.mp hadjacent).2.1
    exact (JoinGraph.mem_tables_ofCatalog.mp hin).1

theorem joinable
    (h : Built (JoinGraph.ofCatalog penalty catalog ignored) base placed authored bridges tree)
    (hu : catalog.Unambiguous) (hm : catalog.Mirrored) (hnode : node ∈ tree.nodes)
    {below : JoinNode} (hbelow : below ∈ tree.joinsBelow node) :
    catalog.Joinable node.table below.table := by
  obtain ⟨id, hid⟩ := List.getElem?_of_mem hnode
  obtain ⟨child, hchild, hsome⟩ := List.mem_filterMap.mp hbelow
  exact Catalog.joinable_of_adjacent hu hm (h.beyond_of_mem_children hid hchild hsome).2

variable {graph : JoinGraph P}

theorem forall_mem_nodes_iff (h : Built graph base placed authored bridges tree)
    {p : JoinNode → Prop} (hsame : ∀ node : JoinNode, p node.unlinked ↔ p node) :
    (∀ node ∈ tree.nodes, p node) ↔ (∀ node ∈ authored, p node) ∧ ∀ node ∈ bridges, p node := by
  rw [← List.forall_mem_append, ← h.holds.contents, contents, List.forall_mem_map]
  simp only [hsame]

theorem exists_mem_nodes_iff (h : Built graph base placed authored bridges tree)
    {p : JoinNode → Prop} (hsame : ∀ node : JoinNode, p node.unlinked ↔ p node) :
    (∃ node ∈ tree.nodes, p node) ↔ (∃ node ∈ authored, p node) ∨ ∃ node ∈ bridges, p node := by
  have hnone := h.forall_mem_nodes_iff (p := fun node => ¬ p node)
    fun node => not_congr (hsame node)
  rw [← not_iff_not]
  push Not
  exact hnone

section

variable (h : Built graph base placed authored bridges tree)
  (hreal : List.Forall₂ (JoinNode.Realizes catalog) authored placed)

include h hreal

/-- Bridges test and sort nothing. -/
theorem rowColumns_iff :
    (∀ node ∈ tree.nodes, ∀ name ∈ node.rowColumns, catalog.HasColumn node.table name) ↔
      ∀ join ∈ base.preOrder, ∀ name ∈ join.rowColumns, catalog.HasColumn join.table name := by
  have hbridges : ∀ node ∈ bridges, ∀ name ∈ node.rowColumns,
      catalog.HasColumn node.table name := by
    intro node hnode name hname
    have hbridge := h.holds.isBridge node hnode
    simp [JoinNode.rowColumns, JoinNode.testedColumns, JoinNode.sortedColumns, hbridge.condition,
      hbridge.orderBy] at hname
  rw [h.forall_mem_nodes_iff fun _ => Iff.rfl, and_iff_left hbridges, ← h.placement.joins,
    List.forall_mem_map]
  refine forall_iff_of_forall₂ hreal fun node entry hstands => ?_
  rw [JoinNode.rowColumns, JoinNode.testedColumns, JoinNode.sortedColumns, Join.rowColumns,
    hstands.condition, hstands.orderBy, hstands.table]

/-- Bridges select nothing. -/
theorem selects_iff (hu : catalog.Unambiguous) :
    (∃ node ∈ tree.nodes, ∃ name ∈ node.select, catalog.HasColumn node.table name) ↔
      ∃ join ∈ base.preOrder, ∃ name, join.Selects catalog name := by
  have hbridges : ¬ ∃ node ∈ bridges, ∃ name ∈ node.select,
      catalog.HasColumn node.table name := by
    rintro ⟨node, hnode, name, hname, -⟩
    rw [(h.holds.isBridge node hnode).select] at hname
    cases hname
  rw [h.exists_mem_nodes_iff fun _ => Iff.rfl, or_iff_left hbridges, ← h.placement.joins]
  simp only [List.mem_map, exists_exists_and_eq_and]
  refine exists_iff_of_forall₂ hreal fun node entry hstands => exists_congr fun name => ?_
  rw [hstands.table, Join.mem_of_checkedSelect hu hstands.select]

/-- Bridges have no sort terms. -/
theorem orderBy_eq : tree.nodes.flatMap (·.orderBy) = base.preOrder.flatMap (·.orderBy) := by
  have hall : tree.nodes.flatMap (·.orderBy) = (authored ++ bridges).flatMap (·.orderBy) := by
    rw [← h.holds.contents, contents, List.flatMap_map]
    rfl
  have hbridges : bridges.flatMap (·.orderBy) = [] :=
    List.flatMap_eq_nil_iff.mpr fun node hnode => (h.holds.isBridge node hnode).orderBy
  have hsame := map_eq_map_of_forall₂ hreal fun node entry hstands => hstands.orderBy
  rw [hall, List.flatMap_append, hbridges, List.append_nil, List.flatMap_def, hsame,
    ← List.flatMap_def, ← h.placement.joins, List.flatMap_map]

end

end JoinTree.Built

/-- A canonical tree has a statement under conditions on the joins as they were written. -/
theorem Join.exists_statement_iff (hu : catalog.Unambiguous) (hm : catalog.Mirrored)
    {penalty : TableRef → TableRef → P} {ignored : List TableRef}
    (hbase : catalog.HasTable base.table)
    (h : base.normalize catalog (JoinGraph.ofCatalog penalty catalog ignored) = .ok tree) :
    (∃ statement, tree.statement catalog = .ok statement) ↔
      (∀ join ∈ base.preOrder, ∀ name ∈ join.rowColumns, catalog.HasColumn join.table name) ∧
      (∃ join ∈ base.preOrder, ∃ name, join.Selects catalog name) ∧
      DefinitelyOrdered ((base.preOrder.flatMap (·.orderBy)).map (·.priority)) := by
  obtain ⟨placed, authored, bridges, -, hbuilt, hreal⟩ := JoinTree.realizes_of_normalize h
  have hroot := (hbuilt.loose JoinTree.root).mpr rfl
  have hrows : ∀ node ∈ tree.nodes, (node.HasRowColumns catalog ∧
      ∀ below ∈ tree.joinsBelow node, catalog.Joinable node.table below.table) ↔
      ∀ name ∈ node.rowColumns, catalog.HasColumn node.table name := by
    intro node hnode
    rw [hu.hasRowColumns_iff (hbuilt.hasTable hbase hnode)]
    exact and_iff_left fun below hbelow => hbuilt.joinable hu hm hnode hbelow
  rw [JoinTree.exists_statement_iff (JoinTree.perm_joinsInOrder hbuilt.linked hbuilt.loose)
    (by simpa [JoinTree.node?] using hroot.1), forall₂_congr hrows, hbuilt.rowColumns_iff hreal,
    hbuilt.orderBy_eq hreal]
  simp only [hu.outputs_iff]
  rw [hbuilt.selects_iff hreal hu]

/-! ### Queries -/

/-- **Which queries compile**, over a catalog whose names stay apart and whose keys are recorded at
both ends. -/
theorem Query.exists_prepare_iff (hu : catalog.Unambiguous) (hm : catalog.Mirrored)
    (query : Query) :
    (∃ prepared, query.prepare catalog = .ok prepared) ↔ query.Compilable catalog := by
  have hself := query.base.self_mem_preOrder
  constructor
  · rintro ⟨_, hprepared⟩
    obtain ⟨tree, statement, htree, hstatement, -⟩ := prepare_eq_ok_iff.mp hprepared
    obtain ⟨hlinked, hjoins⟩ := (Join.exists_normalize_iff hu).mp ⟨tree, htree⟩
    have htables : ∀ join ∈ query.base.preOrder, catalog.HasTable join.table :=
      fun join hjoin => hu.exists_findTable_iff.mp (hjoins join hjoin).1.table
    obtain ⟨hrows, hselects, hpriorities⟩ :=
      (Join.exists_statement_iff hu hm (htables _ hself) htree).mp ⟨statement, hstatement⟩
    refine ⟨htables, hlinked, fun parent hparent => (hjoins parent hparent).1.routes,
      fun parent hparent => (hjoins parent hparent).1.siblings, ?_, hselects, hpriorities⟩
    exact fun join hjoin =>
      List.forall_mem_append.mpr ⟨(hjoins join hjoin).2, hrows join hjoin⟩
  · intro h
    have hplaceable : ∀ join ∈ query.base.preOrder,
        join.Placeable catalog (JoinGraph.ofNames catalog []) := fun join hjoin =>
      ⟨hu.exists_findTable_iff.mpr (h.tables join hjoin), h.siblings join hjoin,
        h.routes join hjoin⟩
    obtain ⟨tree, htree⟩ := (Join.exists_normalize_iff hu).mpr ⟨h.linked, fun join hjoin =>
      ⟨hplaceable join hjoin, (List.forall_mem_append.mp (h.columns join hjoin)).1⟩⟩
    obtain ⟨statement, hstatement⟩ :=
      (Join.exists_statement_iff hu hm (h.tables _ hself) htree).mpr
        ⟨fun join hjoin => (List.forall_mem_append.mp (h.columns join hjoin)).2, h.selects,
          h.priorities⟩
    exact ⟨_, prepare_eq_ok_iff.mpr ⟨tree, statement, htree, hstatement, rfl⟩⟩

/-- **Which queries compile** over an assembled catalog, if the columns that refer were
reported. -/
theorem Query.exists_prepare_assemble_iff (columns : List ListedColumn) (keys : List Relationship)
    (hkeys : ∀ key ∈ keys, ∃ column ∈ columns,
      column.table = key.localTable ∧ column.name = key.localColumn) (query : Query) :
    (∃ prepared, query.prepare (Catalog.assemble columns keys) = .ok prepared) ↔
      query.Compilable (Catalog.assemble columns keys) :=
  query.exists_prepare_iff (Catalog.unambiguous_assemble columns keys)
    (Catalog.mirrored_assemble hkeys)

/-- Some customers with their parcels, which are sorted by the order that they belong to. -/
def parcelsOfSome (ids : List String) : Query :=
  ⟨⟨⟨"shop", "customers"⟩, [], .columns ["id"], some (.membership "id" .among ids), [],
    [⟨⟨"shop", "parcels"⟩, [], .all, none, [⟨"order", .ascending, none⟩], []⟩]⟩, none⟩

/-- Parcels can be reached from customers through orders. -/
theorem routable_customers_parcels :
    (JoinGraph.ofNames shop []).Routable ⟨"shop", "customers"⟩ ⟨"shop", "parcels"⟩ [] := by
  have htable : ∀ ref name, shop.HasColumn ref name → ref ∈ (JoinGraph.ofNames shop []).tables :=
    fun ref name h => JoinGraph.mem_tables_ofCatalog.mpr ⟨h.hasTable, List.not_mem_nil⟩
  have hcustomers := htable ⟨"shop", "customers"⟩ "id"
    (Catalog.hasColumn_assemble_iff.mpr (by decide))
  have horders := htable ⟨"shop", "orders"⟩ "id" (Catalog.hasColumn_assemble_iff.mpr (by decide))
  have hparcels := htable ⟨"shop", "parcels"⟩ "order"
    (Catalog.hasColumn_assemble_iff.mpr (by decide))
  have hends : ∀ a b, shop.RefersTo a b →
      (a, b) ∈ JoinGraph.keyEnds shop ∨ (b, a) ∈ JoinGraph.keyEnds shop :=
    fun _ _ h => .inl (Catalog.mem_keyEnds_iff_refers.mpr (.inl h))
  have hfirst : (JoinGraph.ofNames shop []).Adjacent ⟨"shop", "customers"⟩ ⟨"shop", "orders"⟩ :=
    JoinGraph.adjacent_ofCatalog_iff.mpr ⟨hcustomers, horders,
      (hends _ _ (Catalog.refersTo_assemble_iff.mpr (by decide))).symm⟩
  have hsecond : (JoinGraph.ofNames shop []).Adjacent ⟨"shop", "orders"⟩ ⟨"shop", "parcels"⟩ :=
    JoinGraph.adjacent_ofCatalog_iff.mpr ⟨horders, hparcels,
      (hends _ _ (Catalog.refersTo_assemble_iff.mpr (by decide))).symm⟩
  refine ⟨List.nodup_nil, List.not_mem_nil, by decide, List.isChain_pair.mpr ?_⟩
  rw [JoinGraph.Reaches, if_neg (by decide)]
  exact ⟨List.contains_iff_mem.mpr hcustomers, List.contains_iff_mem.mpr hparcels, 2,
    .step (.step .stay hfirst) hsecond⟩

theorem compilable_parcelsOfSome (ids : List String) : (parcelsOfSome ids).Compilable shop := by
  have hjoins : (parcelsOfSome ids).base.preOrder = [(parcelsOfSome ids).base,
      ⟨⟨"shop", "parcels"⟩, [], .all, none, [⟨"order", .ascending, none⟩], []⟩] := by
    simp [parcelsOfSome, Join.preOrder, Join.preOrderAll]
  have hid : shop.HasColumn ⟨"shop", "customers"⟩ "id" :=
    Catalog.hasColumn_assemble_iff.mpr (by decide)
  have horder : shop.HasColumn ⟨"shop", "parcels"⟩ "order" :=
    Catalog.hasColumn_assemble_iff.mpr (by decide)
  have hkeys : shop.HasKeys ⟨"shop", "customers"⟩ :=
    ⟨_, Catalog.lists_assemble_iff.mpr
      ⟨⟨⟨"shop", "customers"⟩, "id", "integer", .number, false, true⟩, by decide, rfl, rfl⟩, rfl⟩
  refine ⟨?_, hkeys, ?_, ?_, ?_, ?_, ?_⟩ <;> rw [hjoins]
  · simpa [parcelsOfSome] using ⟨hid.hasTable, horder.hasTable⟩
  · simpa [parcelsOfSome] using routable_customers_parcels
  · simp [parcelsOfSome]
  · simpa [parcelsOfSome, Join.namedColumns, Join.listedColumns, Join.rowColumns, Condition.columns]
      using ⟨hid, horder⟩
  · exact ⟨_, List.mem_cons_self, "id", List.mem_singleton.mpr rfl⟩
  · exact .inl (by simp [parcelsOfSome])

theorem exists_prepared_parcelsOfSome (ids : List String) :
    ∃ prepared, (parcelsOfSome ids).prepare shop = .ok prepared :=
  ((parcelsOfSome ids).exists_prepare_iff (Catalog.unambiguous_assemble _ _)
    (Catalog.mirrored_assemble (by decide))).mpr (compilable_parcelsOfSome ids)

theorem exists_prepare_parcelsOfSome_iff :
    (∀ key ∈ shopKeys, ∃ column ∈ shopColumns,
      column.table = key.localTable ∧ column.name = key.localColumn) ∧
    ((∃ prepared, (parcelsOfSome ["1", "2"]).prepare shop = .ok prepared) ↔
      (parcelsOfSome ["1", "2"]).Compilable shop) ∧
    (parcelsOfSome ["1", "2"]).Compilable shop := by
  have hkeys : ∀ key ∈ shopKeys, ∃ column ∈ shopColumns,
      column.table = key.localTable ∧ column.name = key.localColumn := by
    decide
  exact ⟨hkeys, Query.exists_prepare_assemble_iff shopColumns shopKeys hkeys _,
    compilable_parcelsOfSome _⟩

end JoinPlan
