import JoinPlan.Catalog.Assembly
import JoinPlan.Json.Record
import JoinPlan.Sqlite.DeclaredType

/-!
# Introspecting a SQLite database

What SQLite reports about the tables of a database: the columns in the order of their schemas and
tables, and the foreign keys of each table, the last one declared first. Keys of several columns
are reported column by column.

## Main definitions

* `Sqlite.TableDef`, `Sqlite.KeyDef`, `Sqlite.SchemaDef`: what was declared.
* `Sqlite.isListed`: SQLite's own tables are not listed.
* `Sqlite.listedColumns`, `Sqlite.relationships`: the reports.
* `Sqlite.catalog`: the catalog assembled from them.

## Implementation notes

Names are compared without regard to ASCII case, as SQLite does. A column is reported by its
declared name; the table and the columns that a key refers to are reported as the key writes them.
-/

namespace JoinPlan

namespace Sqlite

/-- A column as declared. -/
structure ColumnDef where
  name : String
  declaredType : String
  notNull : Bool
  deriving DecidableEq, Repr

/-- A foreign key as declared. -/
structure KeyDef where
  columns : List String
  table : String
  /-- The columns it refers to, unless it refers to the primary key. -/
  targets : Option (List String)
  deriving DecidableEq, Repr

/-- A table as declared. -/
structure TableDef where
  name : String
  columns : List ColumnDef
  primaryKey : List String
  keys : List KeyDef
  deriving DecidableEq, Repr

/-- A schema: the main database, or one that is attached to it. -/
structure SchemaDef where
  name : String
  tables : List TableDef
  deriving DecidableEq, Repr

/-- The declared name of a column. -/
def TableDef.declaredName (table : TableDef) (name : String) : String :=
  match table.columns.find? fun column => sameName column.name name with
  | some column => column.name
  | none => name

/-- The first column of the primary key. -/
def TableDef.firstKeyColumn? (table : TableDef) : Option String :=
  table.primaryKey.head?.map table.declaredName

/-- The table of a name. -/
def SchemaDef.table? (schema : SchemaDef) (name : String) : Option TableDef :=
  schema.tables.find? fun table => sameName table.name name

/-- A table is listed unless its name is the word for SQLite's own tables and at least one more
character. -/
def isListed (name : String) : Bool :=
  (asciiUpper name).take 6 ≠ "SQLITE".toList || name.length < 7

/-- The tables of a schema that are listed. -/
def SchemaDef.listedTables (schema : SchemaDef) : List TableDef :=
  schema.tables.filter fun table => isListed table.name

/-- The columns of a table as reported. -/
def listedColumnsOf (schema : SchemaDef) (table : TableDef) : List ListedColumn :=
  table.columns.map fun column =>
    let declared := reportedType column.declaredType
    { table := ⟨schema.name, table.name⟩
      name := column.name
      dataType := declared
      kind := kindOfDeclared declared
      isNullable := !column.notNull
      inPrimaryKey := table.primaryKey.any (sameName column.name) }

/-- All columns as reported. -/
def listedColumns (schemas : List SchemaDef) : List ListedColumn :=
  schemas.flatMap fun schema => schema.listedTables.flatMap (listedColumnsOf schema)

/-- The columns that a key refers to, one for each of its own. A key that names none refers to
the first column of the primary key with each of them; without a primary key there is nothing to
refer to. -/
def SchemaDef.targetsOf (schema : SchemaDef) (key : KeyDef) : List String :=
  match key.targets with
  | some targets => targets
  | none =>
    match (schema.table? key.table).bind TableDef.firstKeyColumn? with
    | some column => List.replicate key.columns.length column
    | none => []

/-- A key of a table as reported, column by column. -/
def relationshipsOfKey (schema : SchemaDef) (table : TableDef) (key : KeyDef) :
    List Relationship :=
  (key.columns.zip (schema.targetsOf key)).map fun (column, target) =>
    { localTable := ⟨schema.name, table.name⟩
      localColumn := table.declaredName column
      foreignTable := ⟨schema.name, key.table⟩
      foreignColumn := target }

/-- All foreign keys as reported. -/
def relationships (schemas : List SchemaDef) : List Relationship :=
  schemas.flatMap fun schema =>
    schema.listedTables.flatMap fun table =>
      table.keys.reverse.flatMap (relationshipsOfKey schema table)

/-- The catalog of a database. -/
def catalog (schemas : List SchemaDef) : Catalog :=
  .assemble (listedColumns schemas) (relationships schemas)

/-! ### Reading declarations -/

/-- Reads a column, written as name, type and whether it must have a value. -/
def ColumnDef.ofJson : Json → Except ReadError ColumnDef
  | .arr [.str name, .str declaredType, .bool notNull] => .ok ⟨name, declaredType, notNull⟩
  | _ => .error .malformed

/-- Reads a foreign key. -/
def KeyDef.ofJson (value : Json) : Except ReadError KeyDef :=
  Record.read ["from", "table", "to"] value fun r =>
    KeyDef.mk
      <$> r.required "from" (Json.readList Json.readString)
      <*> r.required "table" Json.readString
      <*> r.withDefault "to" none (Json.readOption (Json.readList Json.readString))

/-- Reads a table. -/
def TableDef.ofJson (value : Json) : Except ReadError TableDef :=
  Record.read ["name", "columns", "pk", "fks"] value fun r =>
    TableDef.mk
      <$> r.required "name" Json.readString
      <*> r.required "columns" (Json.readList ColumnDef.ofJson)
      <*> r.withDefault "pk" [] (Json.readList Json.readString)
      <*> r.withDefault "fks" [] (Json.readList KeyDef.ofJson)

/-- Reads a schema. -/
def SchemaDef.ofJson (value : Json) : Except ReadError SchemaDef :=
  Record.read ["name", "tables"] value fun r =>
    SchemaDef.mk
      <$> r.required "name" Json.readString
      <*> r.required "tables" (Json.readList TableDef.ofJson)

end Sqlite

end JoinPlan
