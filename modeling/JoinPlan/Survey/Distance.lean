import JoinPlan.Graph.Search

/-!
# How far tables are apart

The tables that can be reached from a table over foreign keys, with the number of joins it takes.

## Main definitions

* `RelatedTable`, `Catalog.relatedTables`: the tables within a number of joins, in catalog order.
-/

namespace JoinPlan

/-- A table that can be reached from another, and the fewest joins that lead to it. -/
structure RelatedTable where
  table : TableRef
  joins : Nat
  deriving DecidableEq, Repr

namespace Catalog

/-- The distance of a table, unless it cannot be reached or only by more joins than allowed. -/
def relatedTable? {P : Type} [Penalty P] (graph : JoinGraph P) (source : TableRef)
    (maxJoins : Option Nat) (table : TableRef) : Option RelatedTable :=
  match graph.cheapestTrail? source table with
  | some trail =>
    if maxJoins.all (trail.cost.hops ≤ ·) then some ⟨table, trail.cost.hops⟩ else none
  | none => none

/-- Every other table that can be reached from a table, if that has any foreign key at all. -/
def relatedTables (catalog : Catalog) (source : TableRef) (maxJoins : Option Nat) :
    Except QueryError (List RelatedTable) := do
  let _ ← catalog.findLinkedTable source
  let graph := JoinGraph.ofNames catalog []
  let others := (catalog.tables.map (·.1)).filter (· ≠ source)
  return others.filterMap (relatedTable? graph source maxJoins)

end Catalog

end JoinPlan
