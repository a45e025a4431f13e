import JoinPlan.Error

/-!
# The catalog of a database

A catalog lists the schemas of a database, their tables and the columns of these, each in the
order in which the database reports them. A foreign key is recorded at both of its ends: as an
outbound key on the column that refers, and as an inbound key on the column referred to.

Nothing forces the two records to agree, and nothing forbids that a schema lists a table twice;
look-ups take the first match.

## Main definitions

* `Catalog`, `Schema`, `Table`, `Column`, `OutboundKey`, `InboundKey`, `DataKind`.
* `Catalog.tables`: every table with its reference, in catalog order.
* `Catalog.findTable`: the table of a reference, or which of its halves is unknown.
* `Table.keyTo?`: the first foreign key of a table to another.
-/

namespace JoinPlan

/-- The kind of a column's values, whatever the engine calls their type. -/
inductive DataKind where
  | binary
  | number
  | boolean
  | text
  | datetime
  | hierarchical
  | geometric
  | money
  | other
  deriving DecidableEq, Repr

namespace DataKind

/-- The kinds with their names. -/
def words : List (String × DataKind) :=
  [("binary", binary), ("number", number), ("boolean", boolean), ("text", text),
    ("datetime", datetime), ("hierarchical", hierarchical), ("geometric", geometric),
    ("money", money), ("other", other)]

/-- The name of a kind. -/
def word : DataKind → String
  | binary => "binary"
  | number => "number"
  | boolean => "boolean"
  | text => "text"
  | datetime => "datetime"
  | hierarchical => "hierarchical"
  | geometric => "geometric"
  | money => "money"
  | other => "other"

/-- The kind of a name. -/
def ofWord? (word : String) : Option DataKind :=
  words.lookup word

theorem ofWord?_word (kind : DataKind) : ofWord? kind.word = some kind := by
  cases kind <;> decide

end DataKind

/-- A foreign key, seen from the column that refers. -/
structure OutboundKey where
  foreignTable : TableRef
  foreignColumn : String
  /-- How sure the catalog is of the key. -/
  confidence : Float
  /-- The database enforces the key. -/
  hasConstraint : Bool
  deriving DecidableEq, Repr

/-- A foreign key, seen from the column it refers to. -/
structure InboundKey where
  localTable : TableRef
  localColumn : String
  /-- How sure the catalog is of the key. -/
  confidence : Float
  /-- The database enforces the key. -/
  hasConstraint : Bool
  deriving DecidableEq, Repr

/-- A column of a table. -/
structure Column where
  name : String
  /-- The type as the engine names it. -/
  dataType : String
  kind : DataKind
  isNullable : Bool
  inPrimaryKey : Bool
  outbound : List OutboundKey
  inbound : List InboundKey
  deriving DecidableEq, Repr

/-- A table of a schema. -/
structure Table where
  name : String
  columns : List Column
  deriving DecidableEq, Repr

/-- A schema of a database. -/
structure Schema where
  name : String
  tables : List Table
  deriving DecidableEq, Repr

/-- The schemas of a database. -/
structure Catalog where
  schemas : List Schema
  deriving DecidableEq, Repr, Inhabited

/-! ### Columns and tables -/

/-- The column takes part in a foreign key, at either end. -/
def Column.hasRelationships (column : Column) : Bool :=
  !column.outbound.isEmpty || !column.inbound.isEmpty

/-- The tables at the other ends of a column's foreign keys, the outbound keys first. -/
def Column.linkedTables (column : Column) : List TableRef :=
  column.outbound.map (·.foreignTable) ++ column.inbound.map (·.localTable)

namespace Table

/-- The first column of a name. -/
def column? (table : Table) (name : String) : Option Column :=
  table.columns.find? (·.name = name)

/-- The table has a column of that name. -/
def hasColumn (table : Table) (name : String) : Bool :=
  (table.column? name).isSome

/-- The names of the columns, in order. -/
def columnNames (table : Table) : List String :=
  table.columns.map (·.name)

/-- The columns of the primary key, in column order. -/
def primaryKey (table : Table) : List Column :=
  table.columns.filter (·.inPrimaryKey)

/-- Some column takes part in a foreign key. A table without any cannot be joined. -/
def hasRelationships (table : Table) : Bool :=
  table.columns.any Column.hasRelationships

/-- The tables at the other ends of a table's foreign keys, by column. -/
def linkedTables (table : Table) : List TableRef :=
  table.columns.flatMap Column.linkedTables

/-- The first foreign key to a table, with the column that carries it. -/
def keyTo? (table : Table) (target : TableRef) : Option (Column × OutboundKey) :=
  table.columns.findSome? fun column =>
    (column.outbound.find? (·.foreignTable = target)).map fun key => (column, key)

theorem hasColumn_iff (table : Table) (name : String) :
    table.hasColumn name = true ↔ name ∈ table.columnNames := by
  simp [hasColumn, column?, columnNames, List.find?_isSome]

/-- The key that is found is one of a column of the table, and leads to the target. -/
theorem mem_of_keyTo? {table : Table} {target : TableRef} {column : Column} {key : OutboundKey}
    (h : table.keyTo? target = some (column, key)) :
    column ∈ table.columns ∧ key ∈ column.outbound ∧ key.foreignTable = target := by
  obtain ⟨c, hc, hk⟩ := List.exists_of_findSome?_eq_some h
  obtain ⟨k, hk, he⟩ := Option.map_eq_some_iff.mp hk
  cases he
  exact ⟨hc, List.mem_of_find?_eq_some hk, by simpa using List.find?_some hk⟩

/-- There is a key exactly when some column has one that leads to the target. -/
theorem keyTo?_isSome (table : Table) (target : TableRef) :
    (table.keyTo? target).isSome = true ↔
      ∃ column ∈ table.columns, ∃ key ∈ column.outbound, key.foreignTable = target := by
  simp [keyTo?, List.findSome?_isSome_iff]

end Table

/-! ### Tables of a catalog -/

namespace Catalog

/-- The catalog of a database without schemas. -/
def empty : Catalog := ⟨[]⟩

/-- Every table with its reference, in catalog order. -/
def tables (catalog : Catalog) : List (TableRef × Table) :=
  catalog.schemas.flatMap fun schema =>
    schema.tables.map fun table => (⟨schema.name, table.name⟩, table)

/-- The first table of a name in the first schema of a name. -/
def findTable (catalog : Catalog) (ref : TableRef) : Except QueryError Table :=
  match catalog.schemas.find? (·.name = ref.schema) with
  | none => .error (.unknownSchema ref.schema)
  | some schema =>
    match schema.tables.find? (·.name = ref.table) with
    | none => .error (.unknownTable ref)
    | some table => .ok table

/-- A table that can be joined to others, with the reason where it cannot. -/
def findLinkedTable (catalog : Catalog) (ref : TableRef) : Except QueryError Table := do
  let table ← catalog.findTable ref
  if table.hasRelationships then return table else throw (.noRelationships ref)

/-- A table that is found is listed under its reference. -/
theorem mem_tables_of_findTable {catalog : Catalog} {ref : TableRef} {table : Table}
    (h : catalog.findTable ref = .ok table) : (ref, table) ∈ catalog.tables := by
  unfold findTable at h
  split at h
  · cases h
  · rename_i schema hs
    split at h
    · cases h
    · rename_i t ht
      cases h
      have h₁ : schema.name = ref.schema := by simpa using List.find?_some hs
      have h₂ : table.name = ref.table := by simpa using List.find?_some ht
      refine List.mem_flatMap.mpr ⟨schema, List.mem_of_find?_eq_some hs, List.mem_map.mpr
        ⟨table, List.mem_of_find?_eq_some ht, ?_⟩⟩
      simp [h₁, h₂]

end Catalog

end JoinPlan
