import JoinPlan.Catalog.Assembly
import JoinPlan.Json.Record

/-!
# Catalogs as JSON

How catalogs, and the reports they are assembled from, are written and read. Every field of these
records must be there; unknown ones are passed over.

## Main definitions

* `Catalog.toJson`, `Catalog.ofJson`: a catalog as the array of its schemas.
* `ListedColumn.ofJson`, `Relationship.ofJson`: one entry of a report.
-/

namespace JoinPlan

/-- A reference is written as its text. -/
def TableRef.toJson (ref : TableRef) : Json :=
  .str ref.text

/-- An array of references. -/
def Json.ofTableRefs (refs : List TableRef) : Json :=
  .arr (refs.map TableRef.toJson)

/-- A kind of values is written as its name. -/
def DataKind.toJson (kind : DataKind) : Json :=
  .str kind.word

/-- The name of a kind of values. -/
def DataKind.ofJson : Json → Except ReadError DataKind :=
  Json.readWord DataKind.ofWord?

namespace OutboundKey

/-- The fields of an outbound key, in their declared order. -/
def fieldNames : List String :=
  ["foreignTable", "foreignColumnName", "confidence", "hasConstraint"]

/-- An outbound key as an object. -/
def toJson (key : OutboundKey) : Json :=
  .obj [("foreignTable", key.foreignTable.toJson),
    ("foreignColumnName", .str key.foreignColumn),
    ("confidence", .num (.float key.confidence)),
    ("hasConstraint", .bool key.hasConstraint)]

/-- Reads an outbound key. -/
def ofJson (value : Json) : Except ReadError OutboundKey :=
  Record.read fieldNames value fun r =>
    OutboundKey.mk
      <$> r.required "foreignTable" Json.readTableRef
      <*> r.required "foreignColumnName" Json.readString
      <*> r.required "confidence" Json.readFloat
      <*> r.required "hasConstraint" Json.readBool

end OutboundKey

namespace InboundKey

/-- The fields of an inbound key, in their declared order. -/
def fieldNames : List String :=
  ["localTable", "localColumnName", "confidence", "hasConstraint"]

/-- An inbound key as an object. -/
def toJson (key : InboundKey) : Json :=
  .obj [("localTable", key.localTable.toJson),
    ("localColumnName", .str key.localColumn),
    ("confidence", .num (.float key.confidence)),
    ("hasConstraint", .bool key.hasConstraint)]

/-- Reads an inbound key. -/
def ofJson (value : Json) : Except ReadError InboundKey :=
  Record.read fieldNames value fun r =>
    InboundKey.mk
      <$> r.required "localTable" Json.readTableRef
      <*> r.required "localColumnName" Json.readString
      <*> r.required "confidence" Json.readFloat
      <*> r.required "hasConstraint" Json.readBool

end InboundKey

namespace Column

/-- The fields of a column, in their declared order. -/
def fieldNames : List String :=
  ["name", "dataType", "genericDataType", "isNullable", "includedInPrimaryKey", "foreignKeys",
    "foreignKeyReferences"]

/-- A column as an object. -/
def toJson (column : Column) : Json :=
  .obj [("name", .str column.name),
    ("dataType", .str column.dataType),
    ("genericDataType", column.kind.toJson),
    ("isNullable", .bool column.isNullable),
    ("includedInPrimaryKey", .bool column.inPrimaryKey),
    ("foreignKeys", .arr (column.outbound.map OutboundKey.toJson)),
    ("foreignKeyReferences", .arr (column.inbound.map InboundKey.toJson))]

/-- Reads a column. -/
def ofJson (value : Json) : Except ReadError Column :=
  Record.read fieldNames value fun r =>
    Column.mk
      <$> r.required "name" Json.readString
      <*> r.required "dataType" Json.readString
      <*> r.required "genericDataType" DataKind.ofJson
      <*> r.required "isNullable" Json.readBool
      <*> r.required "includedInPrimaryKey" Json.readBool
      <*> r.required "foreignKeys" (Json.readList OutboundKey.ofJson)
      <*> r.required "foreignKeyReferences" (Json.readList InboundKey.ofJson)

end Column

namespace Table

/-- The fields of a table, in their declared order. -/
def fieldNames : List String := ["name", "columns"]

/-- A table as an object. -/
def toJson (table : Table) : Json :=
  .obj [("name", .str table.name), ("columns", .arr (table.columns.map Column.toJson))]

/-- Reads a table. -/
def ofJson (value : Json) : Except ReadError Table :=
  Record.read fieldNames value fun r =>
    Table.mk
      <$> r.required "name" Json.readString
      <*> r.required "columns" (Json.readList Column.ofJson)

end Table

namespace Schema

/-- The fields of a schema, in their declared order. -/
def fieldNames : List String := ["name", "tables"]

/-- A schema as an object. -/
def toJson (schema : Schema) : Json :=
  .obj [("name", .str schema.name), ("tables", .arr (schema.tables.map Table.toJson))]

/-- Reads a schema. -/
def ofJson (value : Json) : Except ReadError Schema :=
  Record.read fieldNames value fun r =>
    Schema.mk
      <$> r.required "name" Json.readString
      <*> r.required "tables" (Json.readList Table.ofJson)

end Schema

namespace Catalog

/-- A catalog as the array of its schemas. -/
def toJson (catalog : Catalog) : Json :=
  .arr (catalog.schemas.map Schema.toJson)

/-- Reads a catalog. -/
def ofJson (value : Json) : Except ReadError Catalog :=
  (Json.readList Schema.ofJson value).map Catalog.mk

end Catalog

/-! ### Reports -/

namespace ListedColumn

/-- The fields of a reported column, in their declared order. -/
def fieldNames : List String :=
  ["schemaName", "tableName", "name", "dataType", "genericDataType", "isNullable",
    "includedInPrimaryKey"]

/-- A reported column as an object. -/
def toJson (column : ListedColumn) : Json :=
  .obj [("schemaName", .str column.table.schema),
    ("tableName", .str column.table.table),
    ("name", .str column.name),
    ("dataType", .str column.dataType),
    ("genericDataType", column.kind.toJson),
    ("isNullable", .bool column.isNullable),
    ("includedInPrimaryKey", .bool column.inPrimaryKey)]

/-- Reads a reported column. Its schema and table may be any texts. -/
def ofJson (value : Json) : Except ReadError ListedColumn :=
  Record.read fieldNames value fun r =>
    (fun schema table => ListedColumn.mk ⟨schema, table⟩)
      <$> r.required "schemaName" Json.readString
      <*> r.required "tableName" Json.readString
      <*> r.required "name" Json.readString
      <*> r.required "dataType" Json.readString
      <*> r.required "genericDataType" DataKind.ofJson
      <*> r.required "isNullable" Json.readBool
      <*> r.required "includedInPrimaryKey" Json.readBool

end ListedColumn

namespace Relationship

/-- The fields of a reported foreign key, in their declared order. -/
def fieldNames : List String :=
  ["localTable", "localColumn", "foreignTable", "foreignColumn"]

/-- A reported foreign key as an object. -/
def toJson (key : Relationship) : Json :=
  .obj [("localTable", key.localTable.toJson),
    ("localColumn", .str key.localColumn),
    ("foreignTable", key.foreignTable.toJson),
    ("foreignColumn", .str key.foreignColumn)]

/-- Reads a reported foreign key. -/
def ofJson (value : Json) : Except ReadError Relationship :=
  Record.read fieldNames value fun r =>
    Relationship.mk
      <$> r.required "localTable" Json.readTableRef
      <*> r.required "localColumn" Json.readString
      <*> r.required "foreignTable" Json.readTableRef
      <*> r.required "foreignColumn" Json.readString

end Relationship

end JoinPlan
