import JoinPlan.Catalog.Basic

/-!
# Assembling a catalog

A database reports its columns and its foreign keys as two flat lists. `Catalog.assemble` groups
the columns by schema and table and records every foreign key on the columns at both of its ends.
Schemas, tables and columns stand in the order in which they are first reported.

## Main definitions

* `ListedColumn`, `Relationship`: a column and a foreign key as reported.
* `Catalog.addColumn`: a catalog with one more column, in its table and schema.
* `Catalog.assemble`: the catalog of two such lists.
-/

namespace JoinPlan

/-- A column as a database reports it. -/
structure ListedColumn where
  table : TableRef
  name : String
  /-- The type as the engine names it. -/
  dataType : String
  kind : DataKind
  isNullable : Bool
  inPrimaryKey : Bool
  deriving DecidableEq, Repr

/-- A foreign key of one column, as a database reports it. -/
structure Relationship where
  localTable : TableRef
  localColumn : String
  foreignTable : TableRef
  foreignColumn : String
  deriving DecidableEq, Repr

namespace Relationship

/-- The key as the referring column records it. A reported key is certain and enforced. -/
def outboundKey (key : Relationship) : OutboundKey :=
  ⟨key.foreignTable, key.foreignColumn, 1.0, true⟩

/-- The key as the column it refers to records it. -/
def inboundKey (key : Relationship) : InboundKey :=
  ⟨key.localTable, key.localColumn, 1.0, true⟩

end Relationship

namespace ListedColumn

/-- The column with the keys that start or end at it, in the order of the report. -/
def withKeys (column : ListedColumn) (keys : List Relationship) : Column :=
  { name := column.name
    dataType := column.dataType
    kind := column.kind
    isNullable := column.isNullable
    inPrimaryKey := column.inPrimaryKey
    outbound :=
      (keys.filter fun key => key.localTable = column.table && key.localColumn = column.name).map
        Relationship.outboundKey
    inbound :=
      (keys.filter fun key =>
        key.foreignTable = column.table && key.foreignColumn = column.name).map
        Relationship.inboundKey }

end ListedColumn

namespace Catalog

/-- The tables with a column added to the first table of a name, which is appended if there is
none. -/
def addToTables (name : String) (column : Column) : List Table → List Table
  | [] => [⟨name, [column]⟩]
  | table :: rest =>
    if table.name = name then { table with columns := table.columns ++ [column] } :: rest
    else table :: addToTables name column rest

/-- The schemas with a column added to a table of the first schema of a name, which is appended
if there is none. -/
def addToSchemas (ref : TableRef) (column : Column) : List Schema → List Schema
  | [] => [⟨ref.schema, addToTables ref.table column []⟩]
  | schema :: rest =>
    if schema.name = ref.schema then
      { schema with tables := addToTables ref.table column schema.tables } :: rest
    else schema :: addToSchemas ref column rest

/-- The catalog with one more column at the end of its table. -/
def addColumn (catalog : Catalog) (ref : TableRef) (column : Column) : Catalog :=
  ⟨addToSchemas ref column catalog.schemas⟩

/-- The catalog of the columns and foreign keys that a database reports. -/
def assemble (columns : List ListedColumn) (keys : List Relationship) : Catalog :=
  columns.foldl (fun catalog column => catalog.addColumn column.table (column.withKeys keys)) empty

end Catalog

end JoinPlan
