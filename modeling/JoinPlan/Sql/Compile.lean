import JoinPlan.Sql.Keys
import JoinPlan.Tree.Normal

/-!
# Compiling a query

A canonical tree becomes a statement join by join, in pre-order: each contributes the columns it
selects, its condition, its sort terms, the joins to its children and its primary key. The
statement groups by every primary key on the way, which keeps rows apart that only differ in
tables that select nothing.

## Main definitions

* `NodeClauses`, `JoinTree.nodeClauses`: what one join contributes.
* `checkPriorities`: sort terms are in a definite order.
* `JoinTree.statement`: the statement of a tree.
* `Prepared`, `Query.prepare`: a compiled query.
-/

namespace JoinPlan

/-- What one join contributes to a statement. -/
structure NodeClauses where
  outputs : List QualifiedColumn
  filters : List Filter
  sortKeys : List SortKey
  joins : List JoinClause
  groupBy : List QualifiedColumn
  deriving DecidableEq, Repr

/-- The columns of a table that a join selects, in column order. -/
def Table.selected (table : Table) (select : List String) : List Column :=
  table.columns.filter fun column => select.contains column.name

/-- The filter of a join with its condition, whose columns must exist. -/
def JoinNode.filters (node : JoinNode) (table : Table) : Except QueryError (List Filter) :=
  match node.condition with
  | none => .ok []
  | some condition => do
    condition.check node.table table
    return [.condition node.joinAlias condition]

/-- The sort keys of a join, whose columns must exist. -/
def JoinNode.sortKeys (node : JoinNode) (table : Table) : Except QueryError (List SortKey) :=
  node.orderBy.mapM fun term =>
    if table.hasColumn term.column then
      .ok ⟨⟨node.joinAlias, term.column⟩, term.direction, term.priority⟩
    else .error (.unknownColumn node.table term.column)

/-- The join of a child to its parent. -/
def JoinNode.joinClause (catalog : Catalog) (parent child : JoinNode) :
    Except QueryError JoinClause := do
  let on ← catalog.equate parent.table parent.joinAlias child.table child.joinAlias
  return ⟨child.table, some child.joinAlias, on⟩

/-- What a join of the tree contributes. Its condition is looked at before its sort terms, and
these before the joins of its children. -/
def JoinTree.nodeClauses (catalog : Catalog) (tree : JoinTree) (node : JoinNode) :
    Except QueryError NodeClauses := do
  let table ← catalog.findTable node.table
  let filters ← node.filters table
  let sortKeys ← node.sortKeys table
  let joins ← (node.children.filterMap tree.node?).mapM (node.joinClause catalog)
  return {
    outputs := (table.selected node.select).map fun column => ⟨node.joinAlias, column.name⟩
    filters
    sortKeys
    joins
    groupBy := table.primaryKey.map fun column => ⟨node.joinAlias, column.name⟩ }

/-- Every sort key has a priority that no key before it has. -/
def checkDistinct (seen : List Nat) : List SortKey → Except QueryError Unit
  | [] => .ok ()
  | key :: rest =>
    match key.priority with
    | none => .error (.missingPriority key.column.qualifier key.column.column)
    | some priority =>
      if seen.contains priority then .error (.duplicatePriority priority)
      else checkDistinct (priority :: seen) rest

/-- A lone sort key may go without priority; of several, every one needs its own. -/
def checkPriorities (keys : List SortKey) : Except QueryError Unit :=
  if keys.length ≤ 1 then .ok () else checkDistinct [] keys

/-- The sort keys by ascending priority. -/
def sortByPriority (keys : List SortKey) : List SortKey :=
  keys.mergeSort fun a b => a.priority.getD 0 ≤ b.priority.getD 0

/-- The statement of a tree. -/
def JoinTree.statement (catalog : Catalog) (tree : JoinTree) : Except QueryError Statement := do
  let clauses ← tree.joinsInOrder.mapM (tree.nodeClauses catalog)
  let outputs := clauses.flatMap (·.outputs)
  if outputs.isEmpty then throw .emptySelect
  let sortKeys := clauses.flatMap (·.sortKeys)
  checkPriorities sortKeys
  match tree.node? JoinTree.root with
  | none => throw .emptySelect
  | some base =>
    return {
      output := .columns outputs
      table := base.table
      joinAlias := some base.joinAlias
      joins := clauses.flatMap (·.joins)
      filters := clauses.flatMap (·.filters)
      groupBy := clauses.flatMap (·.groupBy)
      orderBy := sortByPriority sortKeys }

/-- A compiled query: its statement, which bears no limit, the tree behind it, and the limit. -/
structure Prepared where
  statement : Statement
  tree : JoinTree
  limit : Option Nat
  deriving DecidableEq, Repr

namespace Prepared

/-- The text of the statement. -/
def sql (prepared : Prepared) : String :=
  prepared.statement.render

/-- The joins in the order of the statement. -/
def joinsList (prepared : Prepared) : List FlatJoin :=
  prepared.tree.flatten

end Prepared

/-- Compiles a query against a catalog. -/
def Query.prepare (catalog : Catalog) (query : Query) : Except QueryError Prepared := do
  let tree ← query.base.normalize catalog (JoinGraph.ofNames catalog [])
  let statement ← tree.statement catalog
  return ⟨statement, tree, query.limit⟩

end JoinPlan
