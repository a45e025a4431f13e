import JoinPlan.Graph.Route
import JoinPlan.Query.Basic

/-!
# Authored joins in their places

Before the canonical tree is built, every authored join is put into its place: the path of tables
that leads to it from the base, and the authored joins above it. The list of placed joins has
every join before its children, these in the order in which they were written.

## Main definitions

* `AuthoredJoin`: an authored join in its place.
* `firstRepeat?`: the first table of a list that came up before.
* `Join.placed`: the authored joins of a tree, or the first reason why one has no place. A join is
  looked at before its children: that its table exists, then that it can be reached, then that
  no two of its children join the same table.
-/

namespace JoinPlan

/-- An authored join in its place. -/
structure AuthoredJoin where
  join : Join
  /-- The tables from the join back to the base: its own first, the base last. -/
  trail : List TableRef
  /-- The positions of the joins it was written under, nearest first. -/
  ancestors : List Nat
  deriving Repr

/-- The first table of a list that is among those seen or stands earlier in the list. -/
def firstRepeat? (seen : List TableRef) : List TableRef → Option TableRef
  | [] => none
  | table :: rest => if table ∈ seen then some table else firstRepeat? (table :: seen) rest

/-- No two children of a join may join the same table. The error shows the path of the second
one as if it were next to its parent. -/
def checkSiblings (trail : List TableRef) (joins : List Join) : Except QueryError Unit :=
  match firstRepeat? [] (joins.map (·.table)) with
  | some table => .error (.duplicateTable table (table :: trail).reverse)
  | none => .ok ()

variable {P : Type} [Penalty P]

/-- The place of a join below a parent, given with its position. The route from the parent starts
with the parent's own table, which already ends its path. -/
def Join.place (graph : JoinGraph P) (parent : Option (Nat × AuthoredJoin)) (join : Join) :
    Except QueryError AuthoredJoin :=
  match parent with
  | none => .ok ⟨join, [join.table], []⟩
  | some (position, parent) => do
    let route ← graph.resolveRoute parent.join.table join.table join.via
    return ⟨join, (route.drop 1).reverse ++ parent.trail, position :: parent.ancestors⟩

mutual

/-- The authored joins from one on, which gets the given position, in pre-order. -/
def Join.placedFrom (catalog : Catalog) (graph : JoinGraph P)
    (parent : Option (Nat × AuthoredJoin)) (position : Nat) :
    Join → Except QueryError (List AuthoredJoin)
  | join@⟨_, _, _, _, _, joins⟩ => do
    let _ ← catalog.findTable join.table
    let placed ← join.place graph parent
    checkSiblings placed.trail join.joins
    let below ← Join.placedAll catalog graph (some (position, placed)) (position + 1) joins
    return placed :: below

/-- The authored joins from each of a list on, the first of which gets the given position. -/
def Join.placedAll (catalog : Catalog) (graph : JoinGraph P)
    (parent : Option (Nat × AuthoredJoin)) (position : Nat) :
    List Join → Except QueryError (List AuthoredJoin)
  | [] => .ok []
  | join :: rest => do
    let first ← Join.placedFrom catalog graph parent position join
    let others ← Join.placedAll catalog graph parent (position + first.length) rest
    return first ++ others

end

/-- The authored joins of a tree in pre-order. -/
def Join.placed (catalog : Catalog) (graph : JoinGraph P) (base : Join) :
    Except QueryError (List AuthoredJoin) :=
  base.placedFrom catalog graph none 0

end JoinPlan
