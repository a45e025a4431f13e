import JoinPlan.Execution.Database
import JoinPlan.Sql.Compile
import JoinPlan.Tree.Written

/-!
# Running queries

A query is compiled, the database is asked, and the flat rows it answers with are divided up again
among the joins. The database is asked only if the query compiles, and then exactly once.

## Main definitions

* `rowLayout`, `splitRow`: which output columns belong to which join, and a row divided up so.
* `Query.run`, `Query.count`: the rows of a query, and their number.
* `Catalog.fetchRelated`: the rows related to a row.
* `ask`: one request, if there is anything to ask.
-/

namespace JoinPlan

/-- The columns that one join contributes to a row. -/
structure JoinRow where
  joinAlias : String
  table : TableRef
  data : Row
  deriving Repr

/-- A join with the columns it outputs, in the table's column order. -/
structure RowPart where
  join : FlatJoin
  columns : List String
  deriving DecidableEq, Repr

/-- The parts of which every row of a query consists. -/
def rowLayout (catalog : Catalog) (joins : List FlatJoin) : Except QueryError (List RowPart) :=
  joins.mapM fun join => do
    let table ← catalog.findTable join.table
    return ⟨join, (table.selected join.select).map (·.name)⟩

/-- The names under which a part's columns are output. -/
def RowPart.outputNames (part : RowPart) : List String :=
  part.columns.map (outputName part.join.joinAlias)

/-- What a part takes from a row. A column that the row lacks is null. -/
def RowPart.take (part : RowPart) (row : Row) : JoinRow :=
  { joinAlias := part.join.joinAlias
    table := part.join.table
    data := Json.Members.ofPairs (part.columns.map fun column =>
      (column, (Json.Members.get? (outputName part.join.joinAlias column) row).getD .null)) }

/-- A row divided up among the joins. -/
def splitRow (layout : List RowPart) (row : Row) : List JoinRow :=
  layout.map fun part => part.take row

/-- The rows of a query. -/
structure QueryResult where
  sql : String
  prepared : Prepared
  rows : List (List JoinRow)

/-- The number of rows of a query. -/
structure CountResult where
  count : Nat
  prepared : Prepared

/-- The rows related to a row. -/
structure RelatedRows where
  sql : String
  rows : List Row

section

variable {δ α β : Type} [Database δ]

/-- Asks the database what has been compiled, and makes a result of its answer. What has not been
compiled is not asked. -/
def ask (db : δ) (compiled : Except QueryError α) (request : α → Request)
    (finish : α → List Row → Except QueryError β) : Except QueryError β × δ :=
  match compiled with
  | .error e => (.error e, db)
  | .ok value =>
    let (answer, db) := Database.exec db (request value)
    (answer.bind (finish value), db)

/-- Runs a query. -/
def Query.run (catalog : Catalog) (query : Query) (db : δ) : Except QueryError QueryResult × δ :=
  ask db (query.prepare catalog) (fun prepared => .rows prepared.statement query.limit)
    fun prepared rows => do
      let layout ← rowLayout catalog prepared.joinsList
      return ⟨prepared.statement.renderLimited query.limit, prepared, rows.map (splitRow layout)⟩

/-- The number in a text: digits, after a plus if there is one, and blanks at either end. -/
def parseCount? (text : String) : Option Nat :=
  let digits := match Text.trimBlanks text with
    | '+' :: rest => rest
    | all => all
  if digits.isEmpty || !digits.all Char.isDigit then none
  else
    let n := digits.foldl (fun n c => 10 * n + (c.toNat - '0'.toNat)) 0
    if n ≤ maxLimit then some n else none

/-- The number that a value of a row stands for. -/
def countOfValue? : Json → Option Nat
  | .str text => parseCount? text
  | value => value.nat? maxLimit

/-- The number in the first row of an answer. -/
def countOfRows? (rows : List Row) : Option Nat := do
  let row ← rows.head?
  let value ← Json.Members.get? "count" row
  countOfValue? value

/-- Counts the rows that a query would have without its limit. -/
def Query.count (catalog : Catalog) (query : Query) (db : δ) :
    Except QueryError CountResult × δ :=
  ask db ({ query with limit := none }.prepare catalog) (fun prepared => .count prepared.statement)
    fun prepared rows =>
      match countOfRows? rows with
      | some count => .ok ⟨count, prepared⟩
      | none => .error .invalidCount

/-- Fetches the rows of a foreign table that are related to a row of a local one. -/
def Catalog.fetchRelated (catalog : Catalog) (localTable : TableRef) (row : Row)
    (foreignTable : TableRef) (db : δ) : Except QueryError RelatedRows × δ :=
  ask db (catalog.relatedRows localTable row foreignTable) (fun statement => .rows statement none)
    fun statement rows => .ok ⟨statement.render, rows⟩

end

/-! ### Results as JSON -/

/-- The compiled query of a result as an object. -/
def Prepared.queryToJson (prepared : Prepared) : Json :=
  .obj ([("base", prepared.tree.toJson)] ++
    prepared.limit.toList.map fun limit => ("limit", .ofNat limit))

/-- The list of joins as an array. -/
def Prepared.joinsToJson (prepared : Prepared) : Json :=
  .arr (prepared.joinsList.map FlatJoin.toJson)

/-- A compiled query as an object. -/
def Prepared.toJson (prepared : Prepared) : Json :=
  .obj [("sql", .str prepared.sql), ("preparedQuery", prepared.queryToJson),
    ("joinsList", prepared.joinsToJson)]

/-- A part of a row as an object. -/
def JoinRow.toJson (row : JoinRow) : Json :=
  .obj [("joinAlias", .str row.joinAlias), ("tableRef", row.table.toJson), ("data", .obj row.data)]

/-- The rows of a query as an object. -/
def QueryResult.toJson (result : QueryResult) : Json :=
  .obj [("sql", .str result.sql),
    ("meta", .obj [("preparedQuery", result.prepared.queryToJson),
      ("joinsList", result.prepared.joinsToJson)]),
    ("rows", .arr (result.rows.map fun row => .arr (row.map JoinRow.toJson)))]

/-- A number of rows as an object. -/
def CountResult.toJson (result : CountResult) : Json :=
  .obj [("count", .ofNat result.count),
    ("meta", .obj [("preparedQuery", result.prepared.queryToJson)])]

/-- Related rows as an object. -/
def RelatedRows.toJson (result : RelatedRows) : Json :=
  .obj [("sql", .str result.sql), ("rows", .arr (result.rows.map .obj))]

end JoinPlan
