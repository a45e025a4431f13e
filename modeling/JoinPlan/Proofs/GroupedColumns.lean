import JoinPlan.Proofs.ListedColumns
import Mathlib.Data.List.Induction
import Mathlib.Data.List.Perm.Basic

/-!
# Columns grouped by table

A database reports its columns one after another, and those of one table need not stand together. An
assembled catalog has them by schema and table, and this is all that assembling does: columns and
keys come up in it as often as they were reported, and in the order of the report.

The proof gives the assembled catalog in one piece, with each list filtered from what was reported.
One more column changes the lists of its own schema and of its own table and no others.

## Main definitions

* `Catalog.schemaNames`, `Catalog.tableNames`: names in the order in which they are first reported.
* `Catalog.gatheredTable`, `Catalog.gatheredSchema`: what was reported of a table or a schema.
* `Column.reported`, `Catalog.reported`: the report that the columns of a catalog come from.
* `Catalog.outboundEntries`, `Catalog.inboundEntries`: the keys that are recorded at either end.
* `Catalog.Gathers`: a catalog is made of a report, the whole of it, and nothing else.

## Main results

* `Catalog.assemble_eq`: the assembled catalog in one piece.
* `perm_flatMap_filter`: parts of a list, taken by distinct keys, make up the whole.
* `Catalog.gathers_assemble`: assembling gathers the report.
-/

namespace JoinPlan

/-! ### Lists without repetitions -/

section

variable {α : Type} [DecidableEq α]

/-- One more element comes last, unless it was there before. -/
theorem eraseDups_concat (xs : List α) (x : α) :
    (xs ++ [x]).eraseDups = if x ∈ xs.eraseDups then xs.eraseDups else xs.eraseDups ++ [x] := by
  rw [List.eraseDups_append]
  split_ifs with hx
  · simp [List.removeAll, List.mem_eraseDups.mp hx]
  · simp [List.removeAll, mt List.mem_eraseDups.mpr hx, List.eraseDups_cons]

theorem nodup_eraseDups (xs : List α) : xs.eraseDups.Nodup := by
  induction xs using List.reverseRecOn with
  | nil => exact List.nodup_nil
  | append_singleton xs x ih =>
    rw [eraseDups_concat]
    split_ifs with hx
    · exact ih
    · exact List.nodup_append.mpr ⟨ih, List.nodup_singleton x, fun y hy z hz heq =>
        hx (List.mem_singleton.mp hz ▸ heq ▸ hy)⟩

/-- Repetitions can be left out before others are, or after. -/
theorem filter_eraseDups (keep : α → Bool) (xs : List α) :
    xs.eraseDups.filter keep = (xs.filter keep).eraseDups := by
  induction xs using List.reverseRecOn with
  | nil => rfl
  | append_singleton xs x ih =>
    rw [eraseDups_concat, List.filter_append]
    cases hkeep : keep x with
    | true =>
      rw [List.filter_cons_of_pos hkeep, List.filter_nil, eraseDups_concat, ← ih]
      simp only [List.mem_filter, hkeep, and_true]
      split_ifs
      · rfl
      · rw [List.filter_append, List.filter_cons_of_pos hkeep, List.filter_nil]
    | false =>
      have hout : [x].filter keep = [] := List.filter_cons_of_neg (by simp [hkeep])
      rw [hout, List.append_nil, ← ih]
      split_ifs
      · rfl
      · rw [List.filter_append, hout, List.append_nil]

end

/-- **Parts of a list, one for each name, make up the whole**, if no name is missing. -/
theorem perm_flatMap_filter {α κ : Type} [DecidableEq κ] {nameOf : α → κ} {names : List κ}
    {xs : List α} (hnames : names.Nodup) (hxs : ∀ x ∈ xs, nameOf x ∈ names) :
    (names.flatMap fun name => xs.filter (nameOf · = name)).Perm xs := by
  induction names generalizing xs with
  | nil =>
    have hnil : xs = [] := List.eq_nil_iff_forall_not_mem.mpr fun x hx => by simpa using hxs x hx
    rw [hnil, List.flatMap_nil]
  | cons name names ih =>
    rw [List.nodup_cons] at hnames
    -- the parts of the other names are parts of what is left without those of the first
    have hrest : (names.flatMap fun other => xs.filter (nameOf · = other)) =
        names.flatMap fun other =>
          (xs.filter fun x => !decide (nameOf x = name)).filter (nameOf · = other) := by
      refine List.flatMap_congr fun other hother => ?_
      rw [List.filter_filter]
      refine List.filter_congr fun x _ => ?_
      have hne : other ≠ name := fun heq => hnames.1 (heq ▸ hother)
      by_cases hx : nameOf x = other <;> simp [hx, hne]
    rw [List.flatMap_cons, hrest]
    refine List.Perm.trans (List.Perm.append_left _ (ih hnames.2 fun x hx => ?_))
      (List.filter_append_perm (nameOf · = name) xs)
    obtain ⟨hmem, hne⟩ := List.mem_filter.mp hx
    exact (List.mem_cons.mp (hxs x hmem)).resolve_left (by simpa using hne)

namespace Catalog

variable {columns : List ListedColumn} {keys : List Relationship} {ref : TableRef} {name : String}

/-! ### What was reported -/

/-- The names of the schemas, in the order in which they are first reported. -/
def schemaNames (columns : List ListedColumn) : List String :=
  (columns.map (·.table.schema)).eraseDups

/-- The names of the tables of a schema, in the order in which they are first reported. -/
def tableNames (columns : List ListedColumn) (schema : String) : List String :=
  ((columns.filter (·.table.schema = schema)).map (·.table.table)).eraseDups

/-- The table with all columns that were reported for it. -/
def gatheredTable (columns : List ListedColumn) (keys : List Relationship) (ref : TableRef) :
    Table :=
  ⟨ref.table, (columns.filter (·.table = ref)).map (·.withKeys keys)⟩

/-- The schema with all tables that were reported for it. -/
def gatheredSchema (columns : List ListedColumn) (keys : List Relationship) (name : String) :
    Schema :=
  ⟨name, (tableNames columns name).map fun table => gatheredTable columns keys ⟨name, table⟩⟩

theorem mem_schemaNames_iff :
    name ∈ schemaNames columns ↔ ∃ column ∈ columns, column.table.schema = name := by
  rw [schemaNames, List.mem_eraseDups, List.mem_map]

theorem mem_tableNames_iff {schema : String} :
    name ∈ tableNames columns schema ↔ ∃ column ∈ columns, column.table = ⟨schema, name⟩ := by
  rw [tableNames, List.mem_eraseDups]
  simp only [List.mem_map, List.mem_filter, decide_eq_true_eq, and_assoc]
  refine exists_congr fun column => and_congr_right fun _ => ?_
  cases column.table
  simp

/-! ### One column more -/

/-- Where each element of a list stands for a name, changing the one of a name or adding it leaves
the others as they are. -/
theorem upsert_map {α : Type} {nameOf : α → String} {key : String} {change : α → α} {fresh : α}
    {before after : String → α} {names : List String} (hnames : names.Nodup)
    (hname : ∀ name, nameOf (before name) = name)
    (hfresh : key ∉ names → fresh = change (before key))
    (hkey : change (before key) = after key)
    (hother : ∀ name, name ≠ key → before name = after name) :
    upsert nameOf key change fresh (names.map before) =
      (if key ∈ names then names else names ++ [key]).map after := by
  induction names with
  | nil => simp [upsert, hfresh, hkey]
  | cons name names ih =>
    rw [List.nodup_cons] at hnames
    rw [List.map_cons, upsert, hname]
    split_ifs with heq hmem hmem
    · subst heq
      rw [List.map_cons, hkey]
      refine congrArg _ (List.map_congr_left fun other hother' => hother other ?_)
      exact fun heq => hnames.1 (heq ▸ hother')
    · exact absurd (heq ▸ List.mem_cons_self) hmem
    · have hmem' : key ∈ names := (List.mem_cons.mp hmem).resolve_left (Ne.symm heq)
      rw [ih hnames.2 fun h => absurd hmem' h, if_pos hmem', List.map_cons, hother name heq]
    · have hmem' : key ∉ names := fun h => hmem (List.mem_cons_of_mem _ h)
      rw [ih hnames.2 fun _ => hfresh hmem, if_neg hmem', List.cons_append, List.map_cons,
        hother name heq]

theorem gatheredTable_concat_self (column : ListedColumn) :
    gatheredTable (columns ++ [column]) keys column.table =
      ⟨column.table.table,
        (gatheredTable columns keys column.table).columns ++ [column.withKeys keys]⟩ := by
  simp [gatheredTable]

theorem gatheredTable_concat_of_ne {column : ListedColumn} (h : ref ≠ column.table) :
    gatheredTable (columns ++ [column]) keys ref = gatheredTable columns keys ref := by
  simp [gatheredTable, Ne.symm h]

/-- A table of which nothing was reported has no columns. -/
theorem gatheredTable_eq_nil (h : ∀ column ∈ columns, column.table ≠ ref) :
    gatheredTable columns keys ref = ⟨ref.table, []⟩ := by
  rw [gatheredTable, List.filter_eq_nil_iff.mpr (by simpa using h), List.map_nil]

/-- A schema of which nothing was reported has no tables. -/
theorem gatheredSchema_eq_nil (h : name ∉ schemaNames columns) :
    gatheredSchema columns keys name = ⟨name, []⟩ := by
  have hnone : tableNames columns name = [] := by
    rw [List.eq_nil_iff_forall_not_mem]
    intro table htable
    obtain ⟨column, hcolumn, heq⟩ := mem_tableNames_iff.mp htable
    exact h (mem_schemaNames_iff.mpr ⟨column, hcolumn, congrArg TableRef.schema heq⟩)
  rw [gatheredSchema, hnone, List.map_nil]

theorem gatheredSchema_concat_self (column : ListedColumn) :
    gatheredSchema (columns ++ [column]) keys column.table.schema =
      { gatheredSchema columns keys column.table.schema with
        tables := addToTables column.table.table (column.withKeys keys)
          (gatheredSchema columns keys column.table.schema).tables } := by
  have hnames : tableNames (columns ++ [column]) column.table.schema =
      if column.table.table ∈ tableNames columns column.table.schema then
        tableNames columns column.table.schema
      else tableNames columns column.table.schema ++ [column.table.table] := by
    rw [tableNames, List.filter_append, List.filter_cons_of_pos (by simp), List.filter_nil,
      List.map_append, List.map_singleton, eraseDups_concat, tableNames]
  rw [addToTables_eq_upsert, gatheredSchema, gatheredSchema, hnames]
  refine congrArg (Schema.mk _) (upsert_map (nodup_eraseDups _) (fun _ => rfl) (fun hnew => ?_) ?_
    fun name hne => ?_).symm
  · rw [gatheredTable_eq_nil fun other hother heq =>
      hnew (mem_tableNames_iff.mpr ⟨other, hother, heq⟩)]
    rfl
  · exact (gatheredTable_concat_self column).symm
  · exact (gatheredTable_concat_of_ne fun heq => hne (congrArg TableRef.table heq)).symm

theorem gatheredSchema_concat_of_ne {column : ListedColumn} (h : name ≠ column.table.schema) :
    gatheredSchema (columns ++ [column]) keys name = gatheredSchema columns keys name := by
  have hnames : tableNames (columns ++ [column]) name = tableNames columns name := by
    simp [tableNames, Ne.symm h]
  rw [gatheredSchema, gatheredSchema, hnames]
  refine congrArg (Schema.mk name) (List.map_congr_left fun table _ => ?_)
  exact gatheredTable_concat_of_ne fun heq => h (congrArg TableRef.schema heq)

/-- **The assembled catalog in one piece.** -/
theorem assemble_eq (columns : List ListedColumn) (keys : List Relationship) :
    assemble columns keys = ⟨(schemaNames columns).map (gatheredSchema columns keys)⟩ := by
  induction columns using List.reverseRecOn with
  | nil => rfl
  | append_singleton columns column ih =>
    have hstep : assemble (columns ++ [column]) keys =
        (assemble columns keys).addColumn column.table (column.withKeys keys) := by
      rw [assemble, List.foldl_append]
      rfl
    have hnames : schemaNames (columns ++ [column]) =
        if column.table.schema ∈ schemaNames columns then schemaNames columns
        else schemaNames columns ++ [column.table.schema] := by
      rw [schemaNames, List.map_append, List.map_singleton, eraseDups_concat, schemaNames]
    rw [hstep, ih, addColumn, addToSchemas_eq_upsert, hnames]
    refine congrArg Catalog.mk (upsert_map (nodup_eraseDups _) (fun _ => rfl) (fun hnew => ?_) ?_
      fun name hne => ?_)
    · rw [gatheredSchema_eq_nil hnew]
    · exact (gatheredSchema_concat_self column).symm
    · exact (gatheredSchema_concat_of_ne hne).symm

/-! ### What the catalog holds -/

/-- The tables of an assembled catalog are those that something was reported of. -/
theorem mem_tables_assemble_iff {entry : Table} :
    (ref, entry) ∈ (assemble columns keys).tables ↔
      (∃ column ∈ columns, column.table = ref) ∧ entry = gatheredTable columns keys ref := by
  obtain ⟨schema, table⟩ := ref
  rw [assemble_eq, mem_tables_iff]
  constructor
  · rintro ⟨_, hschema, rfl, hentry, rfl⟩
    obtain ⟨name, -, rfl⟩ := List.mem_map.mp hschema
    obtain ⟨table, htable, rfl⟩ := List.mem_map.mp hentry
    exact ⟨mem_tableNames_iff.mp htable, rfl⟩
  · rintro ⟨⟨column, hcolumn, heq⟩, rfl⟩
    have hname := mem_schemaNames_iff.mpr ⟨column, hcolumn, congrArg TableRef.schema heq⟩
    exact ⟨_, List.mem_map_of_mem hname, rfl,
      List.mem_map_of_mem (mem_tableNames_iff.mpr ⟨column, hcolumn, heq⟩), rfl⟩

theorem Unambiguous.findTable_eq_ok_iff {catalog : Catalog} (h : catalog.Unambiguous)
    {entry : Table} : catalog.findTable ref = .ok entry ↔ (ref, entry) ∈ catalog.tables :=
  ⟨mem_tables_of_findTable, h.findTable_eq_ok⟩

/-- Every column with the table it is listed under, in catalog order. -/
def listedColumns (catalog : Catalog) : List (TableRef × Column) :=
  catalog.tables.flatMap fun entry => entry.2.columns.map fun column => (entry.1, column)

/-- What was reported, table by table. -/
theorem perm_flatMap_tableNames (columns : List ListedColumn) :
    ((schemaNames columns).flatMap fun schema => (tableNames columns schema).flatMap fun table =>
      columns.filter (·.table = ⟨schema, table⟩)).Perm columns := by
  have hschema : ∀ schema, ((tableNames columns schema).flatMap fun table =>
      columns.filter (·.table = ⟨schema, table⟩)).Perm
        (columns.filter (·.table.schema = schema)) := by
    intro schema
    have hparts : ∀ table, columns.filter (·.table = ⟨schema, table⟩) =
        (columns.filter (·.table.schema = schema)).filter (·.table.table = table) := by
      intro table
      rw [List.filter_filter]
      refine List.filter_congr fun column _ => ?_
      cases column.table
      simp [Bool.and_comm]
    simp only [hparts]
    refine perm_flatMap_filter (nodup_eraseDups _) fun column hcolumn => ?_
    obtain ⟨hmem, hname⟩ := List.mem_filter.mp hcolumn
    obtain rfl := of_decide_eq_true hname
    exact mem_tableNames_iff.mpr ⟨column, hmem, rfl⟩
  refine ((List.Perm.refl _).flatMap fun schema _ => hschema schema).trans ?_
  exact perm_flatMap_filter (nodup_eraseDups _) fun column hcolumn =>
    mem_schemaNames_iff.mpr ⟨column, hcolumn, rfl⟩

/-- **Every reported column is listed once**, with its keys. -/
theorem perm_listedColumns_assemble (columns : List ListedColumn) (keys : List Relationship) :
    (assemble columns keys).listedColumns.Perm
      (columns.map fun column => (column.table, column.withKeys keys)) := by
  have htable : ∀ ref : TableRef, (gatheredTable columns keys ref).columns.map (Prod.mk ref) =
      (columns.filter (·.table = ref)).map fun column => (column.table, column.withKeys keys) := by
    intro ref
    rw [gatheredTable, List.map_map]
    refine List.map_congr_left fun column hcolumn => ?_
    obtain rfl : column.table = ref := by simpa using (List.mem_filter.mp hcolumn).2
    rfl
  have hall : (assemble columns keys).listedColumns =
      ((schemaNames columns).flatMap fun schema => (tableNames columns schema).flatMap fun table =>
        columns.filter (·.table = ⟨schema, table⟩)).map
          fun column => (column.table, column.withKeys keys) := by
    simp only [listedColumns, tables, assemble_eq, gatheredSchema, List.flatMap_map,
      List.flatMap_assoc, List.map_flatMap]
    exact List.flatMap_congr fun schema _ => List.flatMap_congr fun table _ => htable _
  rw [hall]
  exact (perm_flatMap_tableNames columns).map _

end Catalog

/-! ### Keys at both ends -/

/-- A reported column is known by its table and its name. -/
def ListedColumn.place (column : ListedColumn) : TableRef × String :=
  (column.table, column.name)

/-- The column that a key starts at. -/
def Relationship.source (key : Relationship) : TableRef × String :=
  (key.localTable, key.localColumn)

/-- The column that a key leads to. -/
def Relationship.target (key : Relationship) : TableRef × String :=
  (key.foreignTable, key.foreignColumn)

/-- The keys that a column of a table records as starting at it. -/
def Column.outboundEntries (column : Column) (ref : TableRef) : List Relationship :=
  column.outbound.map fun key => ⟨ref, column.name, key.foreignTable, key.foreignColumn⟩

/-- The keys that a column of a table records as leading to it. -/
def Column.inboundEntries (column : Column) (ref : TableRef) : List Relationship :=
  column.inbound.map fun key => ⟨key.localTable, key.localColumn, ref, column.name⟩

/-- The report that a column of a table comes from. -/
def Column.reported (column : Column) (ref : TableRef) : ListedColumn :=
  ⟨ref, column.name, column.dataType, column.kind, column.isNullable, column.inPrimaryKey⟩

namespace ListedColumn

variable (column : ListedColumn) (keys : List Relationship)

@[simp] theorem reported_withKeys : (column.withKeys keys).reported column.table = column := rfl

theorem outbound_withKeys : (column.withKeys keys).outbound =
    (keys.filter (·.source = column.place)).map Relationship.outboundKey :=
  congrArg (List.map _) (List.filter_congr fun key _ => by simp [Relationship.source, place])

theorem inbound_withKeys : (column.withKeys keys).inbound =
    (keys.filter (·.target = column.place)).map Relationship.inboundKey :=
  congrArg (List.map _) (List.filter_congr fun key _ => by simp [Relationship.target, place])

/-- What a column records of a key that starts at it is the whole key. -/
theorem outboundEntries_withKeys : (column.withKeys keys).outboundEntries column.table =
    keys.filter (·.source = column.place) := by
  rw [Column.outboundEntries, outbound_withKeys, List.map_map]
  refine (List.map_congr_left fun key hkey => ?_).trans (List.map_id _)
  obtain ⟨htable, hname⟩ := Prod.mk.inj (of_decide_eq_true (List.mem_filter.mp hkey).2)
  simp only [Function.comp, withKeys, Relationship.outboundKey, ← htable, ← hname, id]

/-- So it is for a key that leads to it. -/
theorem inboundEntries_withKeys : (column.withKeys keys).inboundEntries column.table =
    keys.filter (·.target = column.place) := by
  rw [Column.inboundEntries, inbound_withKeys, List.map_map]
  refine (List.map_congr_left fun key hkey => ?_).trans (List.map_id _)
  obtain ⟨htable, hname⟩ := Prod.mk.inj (of_decide_eq_true (List.mem_filter.mp hkey).2)
  simp only [Function.comp, withKeys, Relationship.inboundKey, ← htable, ← hname, id]

end ListedColumn

namespace Catalog

variable {columns : List ListedColumn} {keys : List Relationship}

/-- The keys that are recorded where they start. -/
def outboundEntries (catalog : Catalog) : List Relationship :=
  catalog.listedColumns.flatMap fun entry => entry.2.outboundEntries entry.1

/-- The keys that are recorded where they lead. -/
def inboundEntries (catalog : Catalog) : List Relationship :=
  catalog.listedColumns.flatMap fun entry => entry.2.inboundEntries entry.1

/-- **Every key is recorded once where it starts**, if that column was reported, and only once. -/
theorem perm_outboundEntries_assemble (hcolumns : (columns.map (·.place)).Nodup)
    (hkeys : ∀ key ∈ keys, key.source ∈ columns.map (·.place)) :
    (assemble columns keys).outboundEntries.Perm keys := by
  refine ((perm_listedColumns_assemble columns keys).flatMap_right _).trans ?_
  have hparts := perm_flatMap_filter hcolumns hkeys
  rw [List.flatMap_map] at hparts ⊢
  simpa only [ListedColumn.outboundEntries_withKeys] using hparts

/-- **Every key is recorded once where it leads**, if that column was reported, and only once. -/
theorem perm_inboundEntries_assemble (hcolumns : (columns.map (·.place)).Nodup)
    (hkeys : ∀ key ∈ keys, key.target ∈ columns.map (·.place)) :
    (assemble columns keys).inboundEntries.Perm keys := by
  refine ((perm_listedColumns_assemble columns keys).flatMap_right _).trans ?_
  have hparts := perm_flatMap_filter hcolumns hkeys
  rw [List.flatMap_map] at hparts ⊢
  simpa only [ListedColumn.inboundEntries_withKeys] using hparts

/-! ### The whole report -/

/-- The catalog is made of the reported columns and keys: of all of them, as often and in the order
in which they were reported, and of nothing else. -/
structure Gathers (catalog : Catalog) (columns : List ListedColumn) (keys : List Relationship) :
    Prop where
  /-- Schemas stand in the order in which they are first reported, each once. -/
  schemas : catalog.schemas.map (·.name) = schemaNames columns
  /-- So do the tables of each schema. -/
  tables : ∀ schema ∈ catalog.schemas,
    schema.tables.map (·.name) = tableNames columns schema.name
  unambiguous : catalog.Unambiguous
  /-- A table has the columns that were reported for it, as they were and in their order. -/
  tableColumns : ∀ ref entry, (ref, entry) ∈ catalog.tables →
    entry.columns.map (·.reported ref) = columns.filter (·.table = ref)
  /-- A column has the keys that start at it, in their order. -/
  outbound : ∀ ref column, catalog.Lists ref column →
    column.outbound = (keys.filter (·.source = (ref, column.name))).map Relationship.outboundKey
  /-- And those that lead to it. -/
  inbound : ∀ ref column, catalog.Lists ref column →
    column.inbound = (keys.filter (·.target = (ref, column.name))).map Relationship.inboundKey
  /-- A table is found exactly if a column was reported for it. -/
  found : ∀ ref, (∃ entry, catalog.findTable ref = .ok entry) ↔
    ∃ column ∈ columns, column.table = ref
  /-- No column is lost, and none is made up. -/
  whole : (catalog.listedColumns.map fun entry => entry.2.reported entry.1).Perm columns
  /-- Where no column is reported twice, and every key starts at one of them, each key is recorded
  once where it starts. -/
  outboundEntries : (columns.map (·.place)).Nodup →
    (∀ key ∈ keys, key.source ∈ columns.map (·.place)) → catalog.outboundEntries.Perm keys
  /-- So it is where they lead. -/
  inboundEntries : (columns.map (·.place)).Nodup →
    (∀ key ∈ keys, key.target ∈ columns.map (·.place)) → catalog.inboundEntries.Perm keys

/-- **Assembling gathers the report** and changes nothing about it. -/
theorem gathers_assemble (columns : List ListedColumn) (keys : List Relationship) :
    (assemble columns keys).Gathers columns keys where
  schemas := by
    rw [assemble_eq, List.map_map]
    exact List.map_id _
  tables := by
    intro schema hschema
    rw [assemble_eq] at hschema
    obtain ⟨name, -, rfl⟩ := List.mem_map.mp hschema
    rw [gatheredSchema, List.map_map]
    exact List.map_id _
  unambiguous := unambiguous_assemble columns keys
  tableColumns := by
    intro ref entry hentry
    obtain ⟨-, rfl⟩ := mem_tables_assemble_iff.mp hentry
    rw [gatheredTable, List.map_map]
    refine (List.map_congr_left fun column hcolumn => ?_).trans (List.map_id _)
    obtain rfl := of_decide_eq_true (List.mem_filter.mp hcolumn).2
    exact column.reported_withKeys keys
  outbound := by
    intro ref column hlisted
    obtain ⟨reported, -, rfl, rfl⟩ := lists_assemble_iff.mp hlisted
    exact reported.outbound_withKeys keys
  inbound := by
    intro ref column hlisted
    obtain ⟨reported, -, rfl, rfl⟩ := lists_assemble_iff.mp hlisted
    exact reported.inbound_withKeys keys
  found := by
    intro ref
    simp only [(unambiguous_assemble columns keys).findTable_eq_ok_iff, mem_tables_assemble_iff]
    exact ⟨fun ⟨_, hreported, _⟩ => hreported, fun hreported => ⟨_, hreported, rfl⟩⟩
  whole := by
    refine ((perm_listedColumns_assemble columns keys).map _).trans (.of_eq ?_)
    rw [List.map_map]
    exact List.map_id _
  outboundEntries := perm_outboundEntries_assemble
  inboundEntries := perm_inboundEntries_assemble

end Catalog

/-- Columns of two tables by turns. The references of the tables are written alike. -/
def stallColumns : List ListedColumn :=
  [⟨⟨"market", "old.stalls"⟩, "id", "integer", .number, false, true⟩,
    ⟨⟨"market.old", "stalls"⟩, "id", "integer", .number, false, true⟩,
    ⟨⟨"market", "old.stalls"⟩, "next", "integer", .number, true, false⟩,
    ⟨⟨"market.old", "stalls"⟩, "stall", "integer", .number, true, false⟩]

/-- The first of these tables refers to itself, and the second to the first. -/
def stallKeys : List Relationship :=
  [⟨⟨"market.old", "stalls"⟩, "stall", ⟨"market", "old.stalls"⟩, "id"⟩,
    ⟨⟨"market", "old.stalls"⟩, "next", ⟨"market", "old.stalls"⟩, "id"⟩]

theorem gathers_stalls :
    (stallColumns.map (·.place)).Nodup ∧
    (∀ key ∈ stallKeys, key.source ∈ stallColumns.map (·.place)) ∧
    (∀ key ∈ stallKeys, key.target ∈ stallColumns.map (·.place)) ∧
    (Catalog.assemble stallColumns stallKeys).outboundEntries.Perm stallKeys ∧
    (Catalog.assemble stallColumns stallKeys).inboundEntries.Perm stallKeys := by
  have hcolumns : (stallColumns.map (·.place)).Nodup := by decide
  have hsources : ∀ key ∈ stallKeys, key.source ∈ stallColumns.map (·.place) := by decide
  have htargets : ∀ key ∈ stallKeys, key.target ∈ stallColumns.map (·.place) := by decide
  have hgathers := Catalog.gathers_assemble stallColumns stallKeys
  exact ⟨hcolumns, hsources, htargets, hgathers.outboundEntries hcolumns hsources,
    hgathers.inboundEntries hcolumns htargets⟩

end JoinPlan
