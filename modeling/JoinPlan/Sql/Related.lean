import JoinPlan.Graph.Search
import JoinPlan.Json.Printer
import JoinPlan.Sql.Keys

/-!
# Rows related to a row

The rows of one table that are linked to a row of another, over the cheapest path between the two.
The known row is described by values of some of its columns, each of which becomes a test. Tables
keep their own names in the statement, for no table comes up twice on the path.

## Main definitions

* `Catalog.joinPath`: the joins along a path.
* `rowFilter`: the test for one value.
* `Catalog.relatedRows`: the statement.
-/

namespace JoinPlan

/-- A row of values under their column names, in order. -/
abbrev Row := Json.Members

/-- The joins along a path that starts at a table. -/
def Catalog.joinPath (catalog : Catalog) (source : TableRef) :
    List TableRef → Except QueryError (List JoinClause)
  | [] => .ok []
  | target :: rest => do
    let on ← catalog.equate source source.text target target.text
    let clauses ← catalog.joinPath target rest
    return ⟨target, none, on⟩ :: clauses

/-- The test that a column has a value. Values other than texts are compared by their JSON
text, and null is no value at all. -/
def rowFilter (column : QualifiedColumn) : Json → Filter
  | .null => .isNull column
  | .str text => .equals column text
  | value => .equals column value.compact

/-- The tests that identify a row, by columns that the table must have. -/
def rowFilters (ref : TableRef) (table : Table) (row : Row) : Except QueryError (List Filter) :=
  row.mapM fun (column, value) =>
    if table.hasColumn column then .ok (rowFilter ⟨ref.text, column⟩ value)
    else .error (.unknownColumn ref column)

/-- The tables after the first on the cheapest path from a table to another. A table is its own
path. -/
def Catalog.pathBeyond (catalog : Catalog) (source target : TableRef) :
    Except QueryError (List TableRef) :=
  if source = target then .ok []
  else ((JoinGraph.ofNames catalog []).shortestPath source target).map fun trail =>
    trail.path.drop 1

/-- The statement for the rows of a foreign table that are linked to a row of a local one. -/
def Catalog.relatedRows (catalog : Catalog) (localTable : TableRef) (row : Row)
    (foreignTable : TableRef) : Except QueryError Statement := do
  let table ← catalog.findLinkedTable localTable
  let _ ← catalog.findTable foreignTable
  let path ← catalog.pathBeyond localTable foreignTable
  let joins ← catalog.joinPath localTable path
  let filters ← rowFilters localTable table row
  return {
    output := .everyColumn foreignTable.table
    table := localTable
    joinAlias := none
    joins
    filters
    groupBy := []
    orderBy := [] }

end JoinPlan
