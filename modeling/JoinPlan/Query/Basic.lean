import JoinPlan.Query.Condition

/-!
# Queries

A query is a tree of tables. Each join names a table, the columns to output, and what the rows
must satisfy and how they are sorted; its children may lie any number of foreign keys away, on a
path through given tables if the author asks for it.

## Main definitions

* `Query`, `Join`, `Selection`, `SortTerm`: what an author writes.
* `Selection.expand`: the columns that a selection stands for.
-/

namespace JoinPlan

/-- The columns to output: all, or those of a list. -/
inductive Selection where
  | all
  | columns (names : List String)
  deriving DecidableEq, Repr

/-- Which way rows are sorted. -/
inductive SortDirection where
  | ascending
  | descending
  deriving DecidableEq, Repr

namespace SortDirection

/-- The word of a direction in a query. -/
def word : SortDirection → String
  | ascending => "asc"
  | descending => "desc"

/-- The direction of a word. -/
def ofWord? (word : String) : Option SortDirection :=
  [("asc", ascending), ("desc", descending)].lookup word

/-- The direction in a statement. -/
def sql : SortDirection → String
  | ascending => "ASC"
  | descending => "DESC"

theorem ofWord?_word (direction : SortDirection) : ofWord? direction.word = some direction := by
  cases direction <;> decide

end SortDirection

/-- A column that rows are sorted by. -/
structure SortTerm where
  column : String
  direction : SortDirection
  /-- Terms with a smaller priority sort first. Only a lone term may go without. -/
  priority : Option Nat
  deriving DecidableEq, Repr

/-- A table of a query with its children. -/
structure Join where
  table : TableRef
  /-- The tables to pass through on the way from the parent. -/
  via : List TableRef
  select : Selection
  condition : Option Condition
  orderBy : List SortTerm
  joins : List Join
  deriving Repr

/-- A tree of joins, and how many rows to output at most. -/
structure Query where
  base : Join
  limit : Option Nat
  deriving Repr

/-- The columns that a selection stands for on a table of a catalog. Listed columns are taken as
they are. -/
def Join.expandedSelect (catalog : Catalog) (join : Join) : Except QueryError (List String) :=
  match join.select with
  | .all => (catalog.findTable join.table).map Table.columnNames
  | .columns names => .ok names

/-- The columns that a selection stands for, each of which must exist. -/
def Join.checkedSelect (catalog : Catalog) (join : Join) : Except QueryError (List String) := do
  let table ← catalog.findTable join.table
  match join.select with
  | .all => return table.columnNames
  | .columns names =>
    match names.find? (!table.hasColumn ·) with
    | some missing => throw (.unknownColumn join.table missing)
    | none => return names

end JoinPlan
