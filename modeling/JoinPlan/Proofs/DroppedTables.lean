import JoinPlan.Catalog.Restriction
import JoinPlan.Proofs.GroupedColumns

/-!
# Dropping tables before or after assembling

Tables can be dropped from a report, together with every key that starts or ends at one of them, or
from the catalog that is assembled from it. What is left of each schema is the same, with its
tables, their columns and the keys of these in the same order.

The catalogs as a whole need not be the same. A schema that loses all its tables stays, though
empty, in a catalog that was assembled before. And schemas stand in the order in which they are
first reported, so a table that is dropped from the report may be the one that came first.

## Main definitions

* `keptColumns`, `keptKeys`: what is left of a report without some tables.
* `Catalog.SameTables`: two catalogs have the same tables, schema by schema.

## Main results

* `Catalog.gatheredSchema_without`: what is left of a schema.
* `Catalog.sameTables_without_assemble`: tables can be dropped before or after.
-/

namespace JoinPlan

/-- The reported columns of all tables but those of a list. -/
def keptColumns (columns : List ListedColumn) (ignored : List TableRef) : List ListedColumn :=
  columns.filter (·.table ∉ ignored)

/-- The reported keys that neither start nor end at a table of a list. -/
def keptKeys (keys : List Relationship) (ignored : List TableRef) : List Relationship :=
  keys.filter fun key => key.localTable ∉ ignored ∧ key.foreignTable ∉ ignored

variable {columns : List ListedColumn} {keys : List Relationship} {ignored : List TableRef}
  {ref : TableRef} {name : String}

/-- A column of a table that stays loses just the keys that are dropped. -/
theorem ListedColumn.without_withKeys {column : ListedColumn} (h : column.table ∉ ignored) :
    (column.withKeys keys).without ignored = column.withKeys (keptKeys keys ignored) := by
  -- one end of the keys of a column is the column itself, so that the other end decides
  have hsource : ∀ key : Relationship, key.source = column.place →
      (key.localTable ∉ ignored ∧ key.foreignTable ∉ ignored ↔ key.foreignTable ∉ ignored) :=
    fun key hkey => and_iff_right ((Prod.mk.inj hkey).1 ▸ h)
  have htarget : ∀ key : Relationship, key.target = column.place →
      (key.localTable ∉ ignored ∧ key.foreignTable ∉ ignored ↔ key.localTable ∉ ignored) :=
    fun key hkey => and_iff_left ((Prod.mk.inj hkey).1 ▸ h)
  have hout : (column.withKeys keys).outbound.filter (!ignored.contains ·.foreignTable) =
      (column.withKeys (keptKeys keys ignored)).outbound := by
    rw [column.outbound_withKeys, column.outbound_withKeys, List.filter_map, keptKeys,
      List.filter_filter, List.filter_filter]
    refine congrArg _ (List.filter_congr fun key _ => ?_)
    rw [Bool.eq_iff_iff, Bool.and_comm]
    simp only [Function.comp, Relationship.outboundKey, Bool.and_eq_true, decide_eq_true_eq,
      Bool.not_eq_true', List.contains_eq_mem, decide_eq_false_iff_not]
    exact and_congr_right fun hkey => (hsource key hkey).symm
  have hin : (column.withKeys keys).inbound.filter (!ignored.contains ·.localTable) =
      (column.withKeys (keptKeys keys ignored)).inbound := by
    rw [column.inbound_withKeys, column.inbound_withKeys, List.filter_map, keptKeys,
      List.filter_filter, List.filter_filter]
    refine congrArg _ (List.filter_congr fun key _ => ?_)
    rw [Bool.eq_iff_iff, Bool.and_comm]
    simp only [Function.comp, Relationship.inboundKey, Bool.and_eq_true, decide_eq_true_eq,
      Bool.not_eq_true', List.contains_eq_mem, decide_eq_false_iff_not]
    exact and_congr_right fun hkey => (htarget key hkey).symm
  rw [Column.without, hout, hin]
  rfl

namespace Catalog

theorem gatheredTable_without (h : ref ∉ ignored) :
    (gatheredTable columns keys ref).without ignored =
      gatheredTable (keptColumns columns ignored) (keptKeys keys ignored) ref := by
  have hcolumns : columns.filter (·.table = ref) =
      (keptColumns columns ignored).filter (·.table = ref) := by
    rw [keptColumns, List.filter_filter]
    refine List.filter_congr fun column _ => ?_
    by_cases href : column.table = ref <;> simp [href, h]
  rw [gatheredTable, gatheredTable, Table.without, List.map_map, ← hcolumns]
  refine congrArg (Table.mk _) (List.map_congr_left fun column hcolumn => ?_)
  obtain rfl := of_decide_eq_true (List.mem_filter.mp hcolumn).2
  exact ListedColumn.without_withKeys h

/-- Names of tables that stay are first reported in the same order. -/
theorem filter_tableNames (columns : List ListedColumn) (ignored : List TableRef)
    (schema : String) : (tableNames columns schema).filter (⟨schema, ·⟩ ∉ ignored) =
      tableNames (keptColumns columns ignored) schema := by
  rw [tableNames, filter_eraseDups, List.filter_map, List.filter_filter, tableNames, keptColumns,
    List.filter_filter]
  refine congrArg (List.eraseDups <| List.map _ ·) (List.filter_congr fun column _ => ?_)
  by_cases hschema : column.table.schema = schema
  · subst hschema
    simp
  · simp [hschema]

/-- **What is left of a schema** is gathered from what is left of the report. -/
theorem gatheredSchema_without (columns : List ListedColumn) (keys : List Relationship)
    (ignored : List TableRef) (name : String) :
    (gatheredSchema columns keys name).without ignored =
      gatheredSchema (keptColumns columns ignored) (keptKeys keys ignored) name := by
  have hstays : ((fun table : Table => !ignored.contains ⟨name, table.name⟩) ∘ fun table =>
      gatheredTable columns keys ⟨name, table⟩) =
        fun table => decide (⟨name, table⟩ ∉ ignored) := by
    funext table
    simp [gatheredTable]
  rw [gatheredSchema, gatheredSchema, Schema.without, ← filter_tableNames, List.filter_map, hstays,
    List.map_map]
  refine congrArg (Schema.mk name) (List.map_congr_left fun table htable => ?_)
  exact gatheredTable_without (of_decide_eq_true (List.mem_filter.mp htable).2)

/-- Two catalogs have the same tables: a look-up finds the same in both, and a schema with tables
is in one of them exactly if it is in the other, with all its tables in the same order. -/
structure SameTables (a b : Catalog) : Prop where
  findTable : ∀ ref entry, a.findTable ref = .ok entry ↔ b.findTable ref = .ok entry
  schemas : ∀ schema : Schema, schema.tables ≠ [] → (schema ∈ a.schemas ↔ schema ∈ b.schemas)

theorem Unambiguous.sameTables {a b : Catalog} (ha : a.Unambiguous) (hb : b.Unambiguous)
    (h : ∀ schema : Schema, schema.tables ≠ [] → (schema ∈ a.schemas ↔ schema ∈ b.schemas)) :
    a.SameTables b := by
  refine ⟨fun ref entry => ?_, h⟩
  rw [ha.findTable_eq_ok_iff, hb.findTable_eq_ok_iff, mem_tables_iff, mem_tables_iff]
  refine exists_congr fun schema => ?_
  rw [and_congr_left fun ⟨_, hentry, _⟩ => h schema (List.ne_nil_of_mem hentry)]

/-- **Tables can be dropped before or after assembling.** -/
theorem sameTables_without_assemble (columns : List ListedColumn) (keys : List Relationship)
    (ignored : List TableRef) :
    ((assemble columns keys).without ignored).SameTables
      (assemble (keptColumns columns ignored) (keptKeys keys ignored)) := by
  refine ((unambiguous_assemble columns keys).without ignored).sameTables
    (unambiguous_assemble _ _) fun schema htables => ?_
  have hkept : ((assemble columns keys).without ignored).schemas = (schemaNames columns).map
      (gatheredSchema (keptColumns columns ignored) (keptKeys keys ignored)) := by
    rw [assemble_eq, without, List.map_map]
    exact List.map_congr_left fun name _ => gatheredSchema_without columns keys ignored name
  rw [hkept, assemble_eq, List.mem_map, List.mem_map]
  constructor
  · rintro ⟨name, -, rfl⟩
    refine ⟨name, by_contra fun hnew => htables ?_, rfl⟩
    rw [gatheredSchema_eq_nil hnew]
  · rintro ⟨name, hname, rfl⟩
    obtain ⟨column, hcolumn, rfl⟩ := mem_schemaNames_iff.mp hname
    exact ⟨_, mem_schemaNames_iff.mpr ⟨column, (List.mem_filter.mp hcolumn).1, rfl⟩, rfl⟩

-- the order of the schemas may depend on a table that is dropped
example :
    let columns : List ListedColumn :=
      [⟨⟨"shop", "drafts"⟩, "id", "integer", .number, false, true⟩,
        ⟨⟨"stock", "crates"⟩, "id", "integer", .number, false, true⟩,
        ⟨⟨"shop", "orders"⟩, "id", "integer", .number, false, true⟩]
    let drafts : List TableRef := [⟨"shop", "drafts"⟩]
    ((assemble columns []).without drafts).schemas.map (·.name) = ["shop", "stock"] ∧
      (assemble (keptColumns columns drafts) []).schemas.map (·.name) = ["stock", "shop"] := by
  decide

end Catalog

end JoinPlan
