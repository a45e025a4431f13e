import JoinPlan.Catalog.Written
import JoinPlan.Proofs.GroupedColumns
import JoinPlan.Proofs.PrintedValues
import JoinPlan.Proofs.QueryReading

/-!
# Catalogs are read back from how they are written

A catalog names tables in two ways. Schemas and tables have their names in fields of their own, and
these may be any texts. Keys name the table at the other end by a single text, which is cut at its
first dot when it is read. So a catalog is read back if the references in its keys are read from
their own texts, however its schemas and tables are called.

The references in an assembled catalog are those of the reported keys, which were read from texts
themselves. Leaving tables out only removes keys.

## Main definitions

* `OutboundKey.Legible`, `InboundKey.Legible`, `Column.Legible`, `Catalog.Legible`: the keys are
  read from how they are written.
* `Catalog.IsReadBack`: a catalog is read back from its value and from both layouts of it.

## Main results

* `Catalog.readsBack_ofJson`: legible catalogs are read back from their values.
* `Catalog.printable_toJson`: and these are read back from how they are printed.
* `Catalog.legible_without_assemble`: what is assembled from keys that were read is legible.
* `Catalog.isReadBack_without_assemble`: so it is read back.
-/

namespace JoinPlan

open Json (ReadsBack)

/-! ### Single values -/

theorem Json.readsBack_readBool : ReadsBack (fun _ => True) .bool readBool :=
  fun _ _ => rfl

theorem Json.readsBack_readFloat :
    ReadsBack (fun _ => True) (fun x => .num (.float x)) readFloat :=
  fun _ _ => rfl

theorem DataKind.readsBack_ofJson : ReadsBack (fun _ => True) toJson ofJson :=
  Json.readsBack_readWord ofWord?_word

/-- A reference that was read from some text is read from its own. -/
theorem TableRef.legible_of_parse? {text : String} {ref : TableRef}
    (h : parse? text = some ref) : ref.Legible := by
  rw [Legible, text_of_parse? h, h]

/-! ### Keys -/

/-- The reference and the confidence of the key are read from how they are written. -/
structure OutboundKey.Legible (key : OutboundKey) : Prop where
  foreignTable : key.foreignTable.Legible
  confidence : (Json.Number.float key.confidence).Readable

/-- The reference and the confidence of the key are read from how they are written. -/
structure InboundKey.Legible (key : InboundKey) : Prop where
  localTable : key.localTable.Legible
  confidence : (Json.Number.float key.confidence).Readable

theorem OutboundKey.nodup_fieldNames : fieldNames.Nodup := by
  decide

theorem InboundKey.nodup_fieldNames : fieldNames.Nodup := by
  decide

theorem OutboundKey.readsBack_ofJson : ReadsBack Legible toJson ofJson := by
  intro key hkey
  refine Record.read_obj nodup_fieldNames (List.Sublist.refl _) ?_
  simp only [Reading.seq_eq_done, Reading.map_eq_done]
  refine ⟨_, key.hasConstraint, ⟨_, key.confidence, ⟨_, key.foreignColumn,
    ⟨key.foreignTable, ?_, rfl⟩, ?_, rfl⟩, ?_, rfl⟩, ?_, rfl⟩
  · exact TableRef.readsBack_readTableRef.required rfl hkey.foreignTable
  · exact Json.readsBack_readString.required rfl trivial
  · exact Json.readsBack_readFloat.required rfl trivial
  · exact Json.readsBack_readBool.required rfl trivial

theorem InboundKey.readsBack_ofJson : ReadsBack Legible toJson ofJson := by
  intro key hkey
  refine Record.read_obj nodup_fieldNames (List.Sublist.refl _) ?_
  simp only [Reading.seq_eq_done, Reading.map_eq_done]
  refine ⟨_, key.hasConstraint, ⟨_, key.confidence, ⟨_, key.localColumn,
    ⟨key.localTable, ?_, rfl⟩, ?_, rfl⟩, ?_, rfl⟩, ?_, rfl⟩
  · exact TableRef.readsBack_readTableRef.required rfl hkey.localTable
  · exact Json.readsBack_readString.required rfl trivial
  · exact Json.readsBack_readFloat.required rfl trivial
  · exact Json.readsBack_readBool.required rfl trivial

theorem OutboundKey.printable_toJson {key : OutboundKey} (h : key.Legible) (depth : Nat) :
    key.toJson.Printable (depth + 1) := by
  refine .obj ?_
  simp only [List.forall_mem_cons]
  exact ⟨.str _, .str _, .num h.confidence, .bool _, by simp⟩

theorem InboundKey.printable_toJson {key : InboundKey} (h : key.Legible) (depth : Nat) :
    key.toJson.Printable (depth + 1) := by
  refine .obj ?_
  simp only [List.forall_mem_cons]
  exact ⟨.str _, .str _, .num h.confidence, .bool _, by simp⟩

theorem OutboundKey.collapse_toJson (key : OutboundKey) : key.toJson.collapse = key.toJson :=
  Json.collapse_obj nodup_fieldNames (by simp [TableRef.toJson, Json.collapse])

theorem InboundKey.collapse_toJson (key : InboundKey) : key.toJson.collapse = key.toJson :=
  Json.collapse_obj nodup_fieldNames (by simp [TableRef.toJson, Json.collapse])

/-! ### Columns, tables and schemas -/

namespace Column

theorem nodup_fieldNames : fieldNames.Nodup := by
  decide

/-- All keys of the column are read from how they are written. -/
structure Legible (column : Column) : Prop where
  outbound : ∀ key ∈ column.outbound, key.Legible
  inbound : ∀ key ∈ column.inbound, key.Legible

theorem readsBack_ofJson : ReadsBack Legible toJson ofJson := by
  intro column hcolumn
  refine Record.read_obj nodup_fieldNames (List.Sublist.refl _) ?_
  simp only [Reading.seq_eq_done, Reading.map_eq_done]
  refine ⟨_, column.inbound, ⟨_, column.outbound, ⟨_, column.inPrimaryKey, ⟨_, column.isNullable,
    ⟨_, column.kind, ⟨_, column.dataType, ⟨column.name, ?_, rfl⟩, ?_, rfl⟩, ?_, rfl⟩, ?_, rfl⟩, ?_,
    rfl⟩, ?_, rfl⟩, ?_, rfl⟩
  · exact Json.readsBack_readString.required rfl trivial
  · exact Json.readsBack_readString.required rfl trivial
  · exact DataKind.readsBack_ofJson.required rfl trivial
  · exact Json.readsBack_readBool.required rfl trivial
  · exact Json.readsBack_readBool.required rfl trivial
  · exact OutboundKey.readsBack_ofJson.list.required rfl hcolumn.outbound
  · exact InboundKey.readsBack_ofJson.list.required rfl hcolumn.inbound

theorem printable_toJson {column : Column} (h : column.Legible) (depth : Nat) :
    column.toJson.Printable (depth + 3) := by
  refine .obj ?_
  simp only [List.forall_mem_cons]
  refine ⟨.str _, .str _, .str _, .bool _, .bool _, .arr ?_, .arr ?_, by simp⟩
  · exact List.forall_mem_map.mpr fun key hkey =>
      OutboundKey.printable_toJson (h.outbound key hkey) depth
  · exact List.forall_mem_map.mpr fun key hkey =>
      InboundKey.printable_toJson (h.inbound key hkey) depth

theorem collapse_toJson (column : Column) : column.toJson.collapse = column.toJson := by
  refine Json.collapse_obj nodup_fieldNames ?_
  simp only [List.forall_mem_cons]
  refine ⟨rfl, rfl, rfl, rfl, rfl, Json.collapse_arr ?_, Json.collapse_arr ?_, by simp⟩
  · simp [OutboundKey.collapse_toJson]
  · simp [InboundKey.collapse_toJson]

end Column

namespace Table

theorem nodup_fieldNames : fieldNames.Nodup := by
  decide

theorem readsBack_ofJson :
    ReadsBack (fun table => ∀ column ∈ table.columns, column.Legible) toJson ofJson := by
  intro table htable
  refine Record.read_obj nodup_fieldNames (List.Sublist.refl _) ?_
  simp only [Reading.seq_eq_done, Reading.map_eq_done]
  refine ⟨_, table.columns, ⟨table.name, ?_, rfl⟩, ?_, rfl⟩
  · exact Json.readsBack_readString.required rfl trivial
  · exact Column.readsBack_ofJson.list.required rfl htable

theorem printable_toJson {table : Table} (h : ∀ column ∈ table.columns, column.Legible)
    (depth : Nat) : table.toJson.Printable (depth + 5) := by
  refine .obj ?_
  simp only [List.forall_mem_cons]
  refine ⟨.str _, .arr ?_, by simp⟩
  exact List.forall_mem_map.mpr fun column hcolumn => Column.printable_toJson (h column hcolumn) _

theorem collapse_toJson (table : Table) : table.toJson.collapse = table.toJson := by
  refine Json.collapse_obj nodup_fieldNames ?_
  simp only [List.forall_mem_cons]
  exact ⟨rfl, Json.collapse_arr (by simp [Column.collapse_toJson]), by simp⟩

end Table

namespace Schema

theorem nodup_fieldNames : fieldNames.Nodup := by
  decide

theorem readsBack_ofJson :
    ReadsBack (fun schema => ∀ table ∈ schema.tables, ∀ column ∈ table.columns, column.Legible)
      toJson ofJson := by
  intro schema hschema
  refine Record.read_obj nodup_fieldNames (List.Sublist.refl _) ?_
  simp only [Reading.seq_eq_done, Reading.map_eq_done]
  refine ⟨_, schema.tables, ⟨schema.name, ?_, rfl⟩, ?_, rfl⟩
  · exact Json.readsBack_readString.required rfl trivial
  · exact Table.readsBack_ofJson.list.required rfl hschema

theorem printable_toJson {schema : Schema}
    (h : ∀ table ∈ schema.tables, ∀ column ∈ table.columns, column.Legible) (depth : Nat) :
    schema.toJson.Printable (depth + 7) := by
  refine .obj ?_
  simp only [List.forall_mem_cons]
  refine ⟨.str _, .arr ?_, by simp⟩
  exact List.forall_mem_map.mpr fun table htable => Table.printable_toJson (h table htable) _

theorem collapse_toJson (schema : Schema) : schema.toJson.collapse = schema.toJson := by
  refine Json.collapse_obj nodup_fieldNames ?_
  simp only [List.forall_mem_cons]
  exact ⟨rfl, Json.collapse_arr (by simp [Table.collapse_toJson]), by simp⟩

end Schema

/-! ### Catalogs -/

namespace Catalog

variable {catalog : Catalog} {columns : List ListedColumn} {keys : List Relationship}

/-- All keys of the columns that are listed are read from how they are written. -/
def Legible (catalog : Catalog) : Prop :=
  ∀ ref column, catalog.Lists ref column → column.Legible

theorem readsBack_ofJson : ReadsBack Legible toJson ofJson := by
  intro catalog hcatalog
  have hschemas : Json.readList Schema.ofJson catalog.toJson = .ok catalog.schemas := by
    refine Schema.readsBack_ofJson.list catalog.schemas ?_
    intro schema hschema table htable column hcolumn
    exact hcatalog ⟨schema.name, table.name⟩ column
      ⟨schema, hschema, rfl, table, htable, rfl, hcolumn⟩
  rw [ofJson, hschemas]
  rfl

theorem printable_toJson (h : catalog.Legible) (depth : Nat) :
    catalog.toJson.Printable (depth + 8) := by
  refine .arr (List.forall_mem_map.mpr fun schema hschema => Schema.printable_toJson ?_ depth)
  intro table htable column hcolumn
  exact h ⟨schema.name, table.name⟩ column ⟨schema, hschema, rfl, table, htable, rfl, hcolumn⟩

theorem collapse_toJson (catalog : Catalog) : catalog.toJson.collapse = catalog.toJson :=
  Json.collapse_arr (by simp [Schema.collapse_toJson])

/-- The catalog is read back: from its value, and from both layouts of it, also by a reader that
settles repeated names first. -/
structure IsReadBack (catalog : Catalog) : Prop where
  value : ofJson catalog.toJson = .ok catalog
  compact : (Json.parse? catalog.toJson.compact).map ofJson = some (.ok catalog)
  pretty : (Json.parse? catalog.toJson.pretty).map ofJson = some (.ok catalog)
  collapsed : (Json.parse? catalog.toJson.compact).map (fun value => ofJson value.collapse) =
    some (.ok catalog)

theorem Legible.isReadBack (h : catalog.Legible) : catalog.IsReadBack := by
  have hvalue := readsBack_ofJson catalog h
  have hprintable : catalog.toJson.Printable Json.maxDepth :=
    printable_toJson h (Json.maxDepth - 8)
  refine ⟨hvalue, ?_, ?_, ?_⟩
  · rw [hprintable.parse?_compact, Option.map_some, hvalue]
  · rw [hprintable.parse?_pretty, Option.map_some, hvalue]
  · rw [hprintable.parse?_compact, Option.map_some, collapse_toJson, hvalue]

/-! ### Assembled catalogs -/

/-- The confidence of a reported key is read from how it is written. -/
theorem readable_one : (Json.Number.float 1.0).Readable := by
  decide +kernel

/-- **What is assembled from keys that were read is legible**, and so is what is left of it. -/
theorem legible_without_assemble (columns : List ListedColumn)
    (hkeys : ∀ key ∈ keys, key.localTable.Legible ∧ key.foreignTable.Legible)
    (ignored : List TableRef) : ((assemble columns keys).without ignored).Legible := by
  intro ref column hlisted
  obtain ⟨-, _, hwhole, rfl⟩ := lists_without_iff.mp hlisted
  obtain ⟨reported, -, -, rfl⟩ := lists_assemble_iff.mp hwhole
  constructor
  · intro entry hentry
    obtain ⟨key, hkey, rfl⟩ := List.mem_map.mp (List.mem_of_mem_filter hentry)
    exact ⟨(hkeys key (List.mem_of_mem_filter hkey)).2, readable_one⟩
  · intro entry hentry
    obtain ⟨key, hkey, rfl⟩ := List.mem_map.mp (List.mem_of_mem_filter hentry)
    exact ⟨(hkeys key (List.mem_of_mem_filter hkey)).1, readable_one⟩

/-- **Assembled catalogs are read back**, with some tables left out or with none, if the references
of the reported keys were read from texts. This rests on two facts: what was read is written as it
was, and a reference is read from its own text exactly when its schema is not empty and holds no
dot, and its name is not empty. -/
theorem isReadBack_without_assemble (columns : List ListedColumn) (keys : List Relationship)
    (ignored : List TableRef) :
    ((∀ key ∈ keys, (∃ text, TableRef.parse? text = some key.localTable) ∧
        ∃ text, TableRef.parse? text = some key.foreignTable) →
      ((assemble columns keys).without ignored).IsReadBack) ∧
    (∀ text ref, TableRef.parse? text = some ref → ref.text = text) ∧
    ∀ ref : TableRef, TableRef.parse? ref.text = some ref ↔
      ref.schema ≠ "" ∧ '.' ∉ ref.schema.toList ∧ ref.table ≠ "" := by
  refine ⟨fun hkeys => ?_, fun _ _ => TableRef.text_of_parse?, TableRef.parse?_text⟩
  refine (legible_without_assemble columns (fun key hkey => ?_) ignored).isReadBack
  obtain ⟨⟨_, hlocal⟩, _, hforeign⟩ := hkeys key hkey
  exact ⟨TableRef.legible_of_parse? hlocal, TableRef.legible_of_parse? hforeign⟩

end Catalog

/-- A table whose name holds a dot refers to itself. -/
def nextStallKey : Relationship :=
  ⟨⟨"market", "old.stalls"⟩, "next", ⟨"market", "old.stalls"⟩, "id"⟩

theorem isReadBack_stalls :
    TableRef.parse? "market.old.stalls" = some nextStallKey.localTable ∧
      nextStallKey.localTable.text = "market.old.stalls" ∧
      ((Catalog.assemble stallColumns [nextStallKey]).without []).IsReadBack ∧
      ((Catalog.assemble stallColumns [nextStallKey]).without
        [⟨"market.old", "stalls"⟩]).IsReadBack := by
  have hparse : TableRef.parse? "market.old.stalls" = some ⟨"market", "old.stalls"⟩ := by decide
  have hkeys : ∀ key ∈ [nextStallKey],
      (∃ text, TableRef.parse? text = some key.localTable) ∧
        ∃ text, TableRef.parse? text = some key.foreignTable := by
    simpa [nextStallKey] using ⟨_, hparse⟩
  obtain ⟨hwhole, htext, -⟩ := Catalog.isReadBack_without_assemble stallColumns [nextStallKey] []
  obtain ⟨hpart, -, -⟩ := Catalog.isReadBack_without_assemble stallColumns [nextStallKey]
    [⟨"market.old", "stalls"⟩]
  exact ⟨hparse, htext _ _ hparse, hwhole hkeys, hpart hkeys⟩

/-- A reference whose schema holds a dot is taken for another one. -/
example : Catalog.ofJson (Catalog.assemble stallColumns stallKeys).toJson ≠
    .ok (Catalog.assemble stallColumns stallKeys) := by
  decide +kernel

end JoinPlan
