import JoinPlan.Query.Basic

/-!
# Statements

A statement is built as data and becomes text only at the end, by one renderer. Whatever is to be
said about the text, which columns it names, which tables it joins, which values stand in it, can
be said about the data.

## Main definitions

* `QualifiedColumn`, `outputName`: a column of a table in the statement, and the name it is
  output under.
* `Output`, `Equation`, `JoinClause`, `Filter`, `SortKey`: the parts of a statement.
* `Statement`, `Statement.render`: the whole, and its text.
* `Statement.renderLimited`, `Statement.renderCount`: the statement with a bound on its rows, and
  the statement that counts them.
-/

namespace JoinPlan

/-- A column of one of the tables in a statement, under the name the table has there. -/
structure QualifiedColumn where
  qualifier : String
  column : String
  deriving DecidableEq, Repr

/-- The text of a qualified column. -/
def QualifiedColumn.text (c : QualifiedColumn) : String :=
  c.qualifier ++ "." ++ c.column

/-- The name under which a column of a join is output. -/
def outputName (joinAlias column : String) : String :=
  joinAlias ++ "__" ++ column

/-- What a statement outputs. -/
inductive Output where
  /-- Columns, each under its output name. -/
  | columns (list : List QualifiedColumn)
  /-- Every column of one table. -/
  | everyColumn (table : String)
  deriving DecidableEq, Repr

/-- Two columns that must agree. -/
structure Equation where
  left : QualifiedColumn
  right : QualifiedColumn
  deriving DecidableEq, Repr

/-- A table that is joined to those before it. -/
structure JoinClause where
  table : TableRef
  joinAlias : Option String
  on : Equation
  deriving DecidableEq, Repr

/-- A test that every row must pass. -/
inductive Filter where
  /-- A condition whose columns are qualified by a name. -/
  | condition (qualifier : String) (condition : Condition)
  /-- A column has a value. -/
  | equals (column : QualifiedColumn) (value : String)
  /-- A column has no value. -/
  | isNull (column : QualifiedColumn)
  deriving DecidableEq, Repr

/-- A column that rows are sorted by. -/
structure SortKey where
  column : QualifiedColumn
  direction : SortDirection
  priority : Option Nat
  deriving DecidableEq, Repr

/-- A statement that selects rows. -/
structure Statement where
  output : Output
  table : TableRef
  joinAlias : Option String
  joins : List JoinClause
  filters : List Filter
  groupBy : List QualifiedColumn
  orderBy : List SortKey
  deriving DecidableEq, Repr

/-! ### Text -/

/-- The text of what is output. -/
def Output.render : Output → String
  | columns list =>
    ", ".intercalate (list.map fun c => c.text ++ " AS " ++ outputName c.qualifier c.column)
  | everyColumn table => table ++ ".*"

/-- The text of an equation. -/
def Equation.render (e : Equation) : String :=
  e.left.text ++ " = " ++ e.right.text

/-- A table with the alias it is given, if any. -/
def renderSource (table : TableRef) (joinAlias : Option String) : String :=
  match joinAlias with
  | some joinAlias => table.text ++ " AS " ++ joinAlias
  | none => table.text

/-- The text of a join. -/
def JoinClause.render (clause : JoinClause) : String :=
  "INNER JOIN " ++ renderSource clause.table clause.joinAlias ++ " ON " ++ clause.on.render

/-- The text of a filter. -/
def Filter.render : Filter → String
  | condition qualifier c => c.render qualifier
  | equals column value => column.text ++ " = " ++ quoteLiteral value
  | isNull column => column.text ++ " IS NULL"

/-- The values that a filter compares with, in the order of its text. -/
def Filter.values : Filter → List String
  | condition _ c => c.values
  | equals _ value => [value]
  | isNull _ => []

/-- The text of a sort key. -/
def SortKey.render (key : SortKey) : String :=
  key.column.text ++ " " ++ key.direction.sql

/-- A clause that is left out if it lists nothing. -/
def renderClause (keyword separator : String) (parts : List String) : String :=
  if parts.isEmpty then "" else keyword ++ separator.intercalate parts

namespace Statement

/-- The text of a statement. -/
def render (s : Statement) : String :=
  "SELECT " ++ s.output.render ++ " FROM " ++ renderSource s.table s.joinAlias ++
    String.join (s.joins.map fun clause => " " ++ clause.render) ++
    renderClause " WHERE " " AND " (s.filters.map Filter.render) ++
    renderClause " GROUP BY " ", " (s.groupBy.map QualifiedColumn.text) ++
    renderClause " ORDER BY " ", " (s.orderBy.map SortKey.render)

/-- The text of a statement that outputs at most so many rows. -/
def renderLimited (s : Statement) (limit : Option Nat) : String :=
  match limit with
  | some n => s.render ++ " LIMIT " ++ toString n
  | none => s.render

/-- The text of the statement that counts the rows of another. -/
def renderCount (s : Statement) : String :=
  "SELECT COUNT(*) AS count FROM (" ++ s.render ++ ") AS counted_rows"

/-- The values in a statement, in the order of its text. -/
def values (s : Statement) : List String :=
  s.filters.flatMap Filter.values

/-- The tables in a statement, in the order in which they are joined. -/
def tables (s : Statement) : List TableRef :=
  s.table :: s.joins.map (·.table)

end Statement

end JoinPlan
