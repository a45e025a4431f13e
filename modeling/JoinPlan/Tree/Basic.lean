import JoinPlan.Query.Basic

/-!
# The canonical join tree

In the canonical tree every join lies one foreign key away from its parent and has an alias of its
own. The joins stand in a list, the base first; each names its parent and its children by their
positions. Joins that were not authored but lie on the way to one are bridges, which select
nothing.

## Main definitions

* `JoinNode`, `JoinTree`: a join in its place, and all of them.
* `JoinTree.aliasFor`: the alias for one more join of a table.
* `JoinTree.push`, `JoinTree.adopt`: one more join, and one more child.
* `JoinTree.preOrder`: the positions with every parent before its children, children in their
  order.
* `JoinTree.nested`: the tree as a value that holds its children.
* `JoinTree.flatten`: the joins in that order, each with its parent and a summary of its children.
-/

namespace JoinPlan

/-- A join in the canonical tree. -/
structure JoinNode where
  table : TableRef
  joinAlias : String
  /-- The columns to output. -/
  select : List String
  condition : Option Condition
  via : List TableRef
  orderBy : List SortTerm
  /-- The tables from here back to the base: the join's own first, the base last. -/
  trail : List TableRef
  /-- The join only carries a path. -/
  bridge : Bool
  parent : Option Nat
  children : List Nat
  deriving DecidableEq, Repr

/-- The tables from the base to the join. -/
def JoinNode.path (node : JoinNode) : List TableRef :=
  node.trail.reverse

/-- The joins of a query, the base first. -/
structure JoinTree where
  nodes : List JoinNode
  deriving DecidableEq, Repr

/-- The `n`-th alias of a table. -/
def numberedAlias (table : TableRef) (n : Nat) : String :=
  table.schema ++ "__" ++ table.table ++ "__" ++ toString n

namespace JoinTree

/-- The position of the base. -/
def root : Nat := 0

/-- How many joins of a table there are. -/
def countOf (tree : JoinTree) (table : TableRef) : Nat :=
  tree.nodes.countP (·.table = table)

/-- The alias for one more join of a table: its joins are numbered from one. -/
def aliasFor (tree : JoinTree) (table : TableRef) : String :=
  numberedAlias table (tree.countOf table + 1)

/-- The join at a position. -/
def node? (tree : JoinTree) (id : Nat) : Option JoinNode :=
  tree.nodes[id]?

/-- The first join with an alias. -/
def byAlias (tree : JoinTree) (joinAlias : String) : Option JoinNode :=
  tree.nodes.find? (·.joinAlias = joinAlias)

/-- The children of the join at a position. -/
def childrenOf (tree : JoinTree) (id : Nat) : List Nat :=
  match tree.node? id with
  | some node => node.children
  | none => []

/-- The tree with one more join, at the end. -/
def push (tree : JoinTree) (node : JoinNode) : JoinTree :=
  ⟨tree.nodes ++ [node]⟩

/-- The tree in which one join is made the last child of another. -/
def adopt (tree : JoinTree) (parent child : Nat) : JoinTree :=
  ⟨(tree.nodes.modify child fun node => { node with parent := some parent }).modify parent
    fun node => { node with children := node.children ++ [child] }⟩

/-! ### Traversals -/

/-- The positions below those of a stack, in pre-order. `steps` bounds how many. -/
def preOrderFrom (tree : JoinTree) : Nat → List Nat → List Nat
  | 0, _ => []
  | _, [] => []
  | steps + 1, id :: stack => id :: preOrderFrom tree steps (tree.childrenOf id ++ stack)

/-- All positions, every join before its children and these in their order. A tree has as many
positions as joins. -/
def preOrder (tree : JoinTree) : List Nat :=
  tree.preOrderFrom tree.nodes.length [root]

/-- The joins in pre-order. -/
def joinsInOrder (tree : JoinTree) : List JoinNode :=
  tree.preOrder.filterMap tree.node?

end JoinTree

/-- A join that holds its children. -/
structure NestedJoin where
  id : Nat
  node : JoinNode
  joins : List NestedJoin
  deriving Repr

namespace JoinTree

/-- The join at a position with everything below it, down to a depth. -/
def nestedFrom? (tree : JoinTree) : Nat → Nat → Option NestedJoin
  | 0, _ => none
  | depth + 1, id =>
    (tree.node? id).map fun node =>
      ⟨id, node, node.children.filterMap (nestedFrom? tree depth)⟩

/-- The whole tree, which is no deeper than it has joins. -/
def nested? (tree : JoinTree) : Option NestedJoin :=
  tree.nestedFrom? tree.nodes.length root

end JoinTree

mutual

/-- The positions of a nested tree, in pre-order. -/
def NestedJoin.preOrder : NestedJoin → List Nat
  | ⟨id, _, joins⟩ => id :: NestedJoin.preOrderAll joins

/-- The positions of all trees of a list. -/
def NestedJoin.preOrderAll : List NestedJoin → List Nat
  | [] => []
  | join :: rest => join.preOrder ++ NestedJoin.preOrderAll rest

end

/-! ### The flat list -/

/-- What the list says about a child of a join. -/
structure ChildJoin where
  table : TableRef
  joinAlias : String
  deriving DecidableEq, Repr

/-- A join in the flat list. -/
structure FlatJoin where
  id : Nat
  table : TableRef
  joinAlias : String
  select : List String
  parent : Option Nat
  children : List ChildJoin
  deriving DecidableEq, Repr

namespace JoinTree

/-- The entry of a join in the flat list. -/
def flatJoin (tree : JoinTree) (id : Nat) (node : JoinNode) : FlatJoin :=
  { id
    table := node.table
    joinAlias := node.joinAlias
    select := node.select
    parent := node.parent
    children := (node.children.filterMap tree.node?).map fun child =>
      ⟨child.table, child.joinAlias⟩ }

/-- The joins in pre-order, each with its parent and a summary of its children. -/
def flatten (tree : JoinTree) : List FlatJoin :=
  tree.preOrder.filterMap fun id => (tree.node? id).map (tree.flatJoin id)

/-! ### How a tree grows -/

@[simp] theorem length_push (tree : JoinTree) (node : JoinNode) :
    (tree.push node).nodes.length = tree.nodes.length + 1 := by
  simp [push]

@[simp] theorem length_adopt (tree : JoinTree) (parent child : Nat) :
    (tree.adopt parent child).nodes.length = tree.nodes.length := by
  simp [adopt]

end JoinTree

end JoinPlan
