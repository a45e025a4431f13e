import JoinPlan.Execution.Run
import JoinPlan.Proofs.Compilable
import JoinPlan.Proofs.RecordReading

/-!
# Rows are divided up as they were put together

The columns that a statement outputs are listed once when the statement is written, join by join,
and once more when its rows are divided up, from the flat list of joins. The two lists are the same:
both go through the joins in pre-order, and through the columns of each table in their order.

So a row that has just these names, no two of them the same, falls into parts that make it up again.
A part is read name by name, and none of its names is found anywhere else in the row.

## Main definitions

* `QualifiedColumn.outputName`, `JoinRow.outputs`: what a column, and what a part of a row, is
  called in the rows of a statement.
* `DividesUp`: a row was divided up by a layout.

## Main results

* `JoinTree.exists_rowLayout`: the layout of rows is that of the columns in the statement.
* `dividesUp_splitRow`: dividing up a row loses nothing.
* `Query.run_dividesUp`: running a query divides up every row.
-/

namespace JoinPlan

/-! ### Parts of a row -/

/-- The name under which a statement outputs a column. -/
def QualifiedColumn.outputName (column : QualifiedColumn) : String :=
  JoinPlan.outputName column.qualifier column.column

/-- What a part contributes to its row. -/
def JoinRow.outputs (part : JoinRow) : Json.Members :=
  part.data.map fun (column, value) => (outputName part.joinAlias column, value)

/-- The row was divided up by a layout: each join has a part with the columns that are laid out for
it, in their order, and the parts together are the row. -/
structure DividesUp (layout : List RowPart) (row : Row) (parts : List JoinRow) : Prop where
  joins : parts.map (fun part => (part.joinAlias, part.table)) =
    layout.map fun part => (part.join.joinAlias, part.join.table)
  columns : parts.map (fun part => part.data.names) = layout.map (·.columns)
  outputs : parts.flatMap JoinRow.outputs = row

namespace RowPart

variable {part : RowPart} (h : part.outputNames.Nodup) (row : Row)

include h

/-- No column is taken twice. -/
theorem data_take : (part.take row).data = part.columns.map fun column =>
    (column, (Json.Members.get? (outputName part.join.joinAlias column) row).getD .null) := by
  have hcolumns : part.columns.Nodup := h.of_map
  rw [take, Json.Members.ofPairs_eq_self]
  rwa [Json.Members.names, List.map_map, Function.comp_def, List.map_id']

theorem names_data_take : (part.take row).data.names = part.columns := by
  rw [data_take h, Json.Members.names, List.map_map, Function.comp_def, List.map_id']

/-- A part takes the values under its names. -/
theorem outputs_take : (part.take row).outputs = part.outputNames.map fun name =>
    (name, (Json.Members.get? name row).getD .null) := by
  rw [JoinRow.outputs, data_take h, outputNames, List.map_map, List.map_map]
  rfl

end RowPart

/-- **Dividing up a row loses nothing.** -/
theorem dividesUp_splitRow {layout : List RowPart} {row : Row}
    (hrow : Json.Members.names row = layout.flatMap RowPart.outputNames)
    (hnodup : (layout.flatMap RowPart.outputNames).Nodup) :
    DividesUp layout row (splitRow layout row) := by
  have hparts : ∀ part ∈ layout, part.outputNames.Nodup := (List.nodup_flatMap.mp hnodup).1
  refine ⟨?_, ?_, ?_⟩
  · rw [splitRow, List.map_map]
    rfl
  · rw [splitRow, List.map_map]
    exact List.map_congr_left fun part hpart => RowPart.names_data_take (hparts part hpart) row
  · have hall := List.flatMap_congr fun part hpart => RowPart.outputs_take (hparts part hpart) row
    rw [splitRow, List.flatMap_map, hall, ← List.map_flatMap, ← hrow]
    exact Json.Members.map_get?_names (hrow ▸ hnodup)

/-! ### The layout of rows -/

namespace JoinTree

variable {catalog : Catalog} {tree : JoinTree}

/-- Rows are laid out as the joins contribute columns. -/
theorem exists_rowLayout_of_nodeClauses {ids : List Nat} {clauses : List NodeClauses}
    (h : (ids.filterMap tree.node?).mapM (tree.nodeClauses catalog) = .ok clauses) :
    ∃ layout, rowLayout catalog
        (ids.filterMap fun id => (tree.node? id).map (tree.flatJoin id)) = .ok layout ∧
      layout.map (·.join) = ids.filterMap (fun id => (tree.node? id).map (tree.flatJoin id)) ∧
      layout.flatMap RowPart.outputNames =
        (clauses.flatMap (·.outputs)).map QualifiedColumn.outputName := by
  induction ids generalizing clauses with
  | nil =>
    cases h
    exact ⟨[], rfl, rfl, rfl⟩
  | cons id rest ih =>
    cases hnode : tree.node? id with
    | none =>
      rw [List.filterMap_cons_none hnode] at h
      rw [List.filterMap_cons_none (by rw [hnode, Option.map_none])]
      exact ih h
    | some node =>
      rw [List.filterMap_cons_some hnode, mapM_eq_ok_iff] at h
      rw [List.filterMap_cons_some (by rw [hnode, Option.map_some])]
      cases h with
      | cons hfirst hothers =>
        obtain ⟨table, _, htable, -, -, -, rfl⟩ := nodeClauses_eq_ok_iff.mp hfirst
        obtain ⟨layout, hlayout, hjoins, hnames⟩ := ih (mapM_eq_ok_iff.mpr hothers)
        refine ⟨⟨tree.flatJoin id node, (table.selected node.select).map (·.name)⟩ :: layout,
          ?_, ?_, ?_⟩
        · rw [rowLayout, mapM_eq_ok_iff] at hlayout ⊢
          exact .cons (bind_eq_ok_iff.mpr ⟨table, htable, rfl⟩) hlayout
        · rw [List.map_cons, hjoins]
        · rw [List.flatMap_cons, List.flatMap_cons, List.map_append, hnames, RowPart.outputNames,
            List.map_map, List.map_map]
          rfl

/-- **The layout of rows is that of the columns in the statement.** -/
theorem exists_rowLayout {statement : Statement} (h : tree.statement catalog = .ok statement) :
    ∃ columns layout, statement.output = .columns columns ∧
      rowLayout catalog tree.flatten = .ok layout ∧ layout.map (·.join) = tree.flatten ∧
      layout.flatMap RowPart.outputNames = columns.map QualifiedColumn.outputName := by
  obtain ⟨clauses, _, hclauses, -, -, -, rfl⟩ := statement_eq_ok_iff.mp h
  obtain ⟨layout, hlayout, hjoins, hnames⟩ := exists_rowLayout_of_nodeClauses hclauses
  exact ⟨_, layout, rfl, hlayout, hjoins, hnames⟩

end JoinTree

/-! ### Running a query -/

section

variable {δ : Type} [Database δ] {catalog : Catalog} {query : Query} {prepared : Prepared}

theorem Query.run_eq_ok {layout : List RowPart} {db : δ} {rows : List Row}
    (hprepared : query.prepare catalog = .ok prepared)
    (hlayout : rowLayout catalog prepared.joinsList = .ok layout)
    (hrows : (Database.exec db (.rows prepared.statement query.limit)).1 = .ok rows) :
    (query.run catalog db).1 = .ok
      ⟨prepared.statement.renderLimited query.limit, prepared, rows.map (splitRow layout)⟩ := by
  simp only [run, ask, hprepared, hrows]
  exact bind_eq_ok_iff.mpr ⟨rows, rfl, bind_eq_ok_iff.mpr ⟨layout, hlayout, rfl⟩⟩

/-- **Running a query divides up every row.** The names that the statement outputs are those of the
layout. If no two of them are the same, and the database answers with rows that have just these
names in their order, the result has as many rows, each divided up among the joins. -/
theorem Query.run_dividesUp (δ : Type) [Database δ] (catalog : Catalog) (query : Query)
    (prepared : Prepared) (h : query.prepare catalog = .ok prepared) :
    ∃ columns layout, prepared.statement.output = .columns columns ∧
      rowLayout catalog prepared.joinsList = .ok layout ∧
      layout.map (·.join) = prepared.joinsList ∧
      columns.map QualifiedColumn.outputName = layout.flatMap RowPart.outputNames ∧
      ((columns.map QualifiedColumn.outputName).Nodup → ∀ (db : δ) (rows : List Row),
        (Database.exec db (.rows prepared.statement query.limit)).1 = .ok rows →
        (∀ row ∈ rows, Json.Members.names row = columns.map QualifiedColumn.outputName) →
        ∃ result, (query.run catalog db).1 = .ok result ∧ result.prepared = prepared ∧
          List.Forall₂ (DividesUp layout) rows result.rows) := by
  obtain ⟨tree, statement, -, hstatement, rfl⟩ := prepare_eq_ok_iff.mp h
  obtain ⟨columns, layout, houtput, hlayout, hjoins, hnames⟩ := JoinTree.exists_rowLayout hstatement
  refine ⟨columns, layout, houtput, hlayout, hjoins, hnames.symm, ?_⟩
  intro hnodup db rows hrows hall
  refine ⟨_, run_eq_ok h hlayout hrows, rfl, ?_⟩
  rw [← hnames] at hnodup hall
  rw [List.forall₂_map_right_iff, List.forall₂_same]
  exact fun row hrow => dividesUp_splitRow (hall row hrow) hnodup

end

/-- A database with the parcels of one customer. -/
def parcelDatabase : ScriptedDatabase :=
  .respondWith ⟨shopColumns, shopKeys, none, []⟩
    [[("shop__customers__1__id", .ofNat 1), ("shop__parcels__1__order", .ofNat 7)],
      [("shop__customers__1__id", .ofNat 1), ("shop__parcels__1__order", .ofNat 8)]]

theorem run_dividesUp_parcelsOfSome :
    ∃ prepared layout result, (parcelsOfSome ["1", "2"]).prepare shop = .ok prepared ∧
      layout.map (·.join) = prepared.joinsList ∧
      prepared.joinsList.map (·.joinAlias) =
        ["shop__customers__1", "shop__orders__1", "shop__parcels__1"] ∧
      ((parcelsOfSome ["1", "2"]).run shop parcelDatabase).1 = .ok result ∧
      List.Forall₂ (DividesUp layout)
        [[("shop__customers__1__id", .ofNat 1), ("shop__parcels__1__order", .ofNat 7)],
          [("shop__customers__1__id", .ofNat 1), ("shop__parcels__1__order", .ofNat 8)]]
        result.rows := by
  have hcompiled : ((parcelsOfSome ["1", "2"]).prepare shop).map
      (fun prepared => (prepared.joinsList.map (·.joinAlias), prepared.statement.output)) =
      .ok (["shop__customers__1", "shop__orders__1", "shop__parcels__1"],
        .columns [⟨"shop__customers__1", "id"⟩, ⟨"shop__parcels__1", "order"⟩]) := by
    decide +kernel
  obtain ⟨prepared, hprepared, hparts⟩ := map_eq_ok_iff.mp hcompiled
  obtain ⟨haliases, houtput⟩ := Prod.ext_iff.mp hparts
  obtain ⟨columns, layout, hcolumns, -, hjoins, -, hrun⟩ :=
    Query.run_dividesUp ScriptedDatabase shop _ prepared hprepared
  cases houtput.symm.trans hcolumns
  obtain ⟨result, hresult, -, hrows⟩ := hrun (by decide) parcelDatabase _ rfl (by decide)
  exact ⟨prepared, layout, result, hprepared, hjoins, haliases, hresult, hrows⟩

end JoinPlan
