import JoinPlan.Tree.Authored
import JoinPlan.Tree.Basic

/-!
# Building the canonical tree

All authored joins enter the tree before any of them gets a parent, so no bridge is ever built for
a path that an authored join has. Then each is attached to the join whose path is its own without
the last table. An authored join above it is preferred, the nearest first; where no join has that
path, bridges are built along it.

## Main definitions

* `JoinTree.pointAt?`: the join with a path.
* `JoinTree.attachPoint`: the join with a path, which is built if need be.
* `JoinTree.attach`: an authored join gets its parent.
* `Join.normalize`: the canonical tree of an authored tree.
-/

namespace JoinPlan

namespace JoinTree

/-- The tree with the authored join at its end, not yet attached. -/
def pushAuthored (tree : JoinTree) (placed : AuthoredJoin) (select : List String) : JoinTree :=
  tree.push
    { table := placed.join.table
      joinAlias := tree.aliasFor placed.join.table
      select
      condition := placed.join.condition
      via := placed.join.via
      orderBy := placed.join.orderBy
      trail := placed.trail
      bridge := false
      parent := none
      children := [] }

/-- The tree with a bridge at its end, not yet attached. -/
def pushBridge (tree : JoinTree) (table : TableRef) (behind : List TableRef) : JoinTree :=
  tree.push
    { table
      joinAlias := tree.aliasFor table
      select := []
      condition := none
      via := []
      orderBy := []
      trail := table :: behind
      bridge := true
      parent := none
      children := [] }

/-- The join at a position has that trail. -/
def hasTrail (tree : JoinTree) (trail : List TableRef) (id : Nat) : Bool :=
  match tree.node? id with
  | some node => node.trail = trail
  | none => false

/-- The join with a trail: the first of the preferred ones, else the first of all. -/
def pointAt? (tree : JoinTree) (preferred : List Nat) (trail : List TableRef) : Option Nat :=
  match preferred.find? (tree.hasTrail trail) with
  | some id => some id
  | none => tree.nodes.findIdx? (·.trail = trail)

/-- The join with a trail. Where there is none, a bridge is built below the join with the rest of
the trail, which is found the same way; a trail without tables belongs to the base. -/
def attachPoint (tree : JoinTree) (preferred : List Nat) : List TableRef → JoinTree × Nat
  | [] => (tree, root)
  | table :: behind =>
    match tree.pointAt? preferred (table :: behind) with
    | some id => (tree, id)
    | none =>
      let (tree, parent) := tree.attachPoint preferred behind
      ((tree.pushBridge table behind).adopt parent tree.nodes.length, tree.nodes.length)

/-- Gives the authored join at a position its parent. The base, which stands below nothing, has
none. -/
def attach (tree : JoinTree) (id : Nat) (placed : AuthoredJoin) : JoinTree :=
  if placed.ancestors.isEmpty then tree
  else
    let (tree, parent) := tree.attachPoint placed.ancestors (placed.trail.drop 1)
    tree.adopt parent id

/-- Attaches the authored joins of a list, the first of which stands at the given position. -/
def attachAll (tree : JoinTree) (position : Nat) : List AuthoredJoin → JoinTree
  | [] => tree
  | placed :: rest => (tree.attach position placed).attachAll (position + 1) rest

/-- The tree of placed joins with the columns that each selects, none of them attached. -/
def unattached (placed : List AuthoredJoin) (selects : List (List String)) : JoinTree :=
  (placed.zip selects).foldl (fun tree entry => pushAuthored tree entry.1 entry.2) ⟨[]⟩

/-- The tree of placed joins with the columns that each selects. -/
def ofPlaced (placed : List AuthoredJoin) (selects : List (List String)) : JoinTree :=
  (unattached placed selects).attachAll 0 placed

end JoinTree

/-- The canonical tree of an authored tree. The base must have foreign keys; then all joins must
have a place; then all selected columns must exist. -/
def Join.normalize {P : Type} [Penalty P] (catalog : Catalog) (graph : JoinGraph P) (base : Join) :
    Except QueryError JoinTree := do
  let _ ← catalog.findLinkedTable base.table
  let placed ← base.placed catalog graph
  let selects ← placed.mapM fun entry => entry.join.checkedSelect catalog
  return JoinTree.ofPlaced placed selects

end JoinPlan
