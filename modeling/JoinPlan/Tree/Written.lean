import JoinPlan.Query.Written
import JoinPlan.Tree.Basic

/-!
# Canonical trees as JSON

A tree is written as its base, with the children of every join nested in it; the flat list as an
array of its entries. A condition, a list of waypoints or of sort terms that is absent or empty is
left out.
-/

namespace JoinPlan

namespace JoinNode

/-- The members of a join but for its children. -/
def members (node : JoinNode) : Json.Members :=
  [("tableRef", node.table.toJson), ("joinAlias", .str node.joinAlias),
    ("select", .ofStrings node.select)] ++
    node.condition.toList.map (fun condition => ("where", condition.toJson)) ++
    Join.listMember "via" (node.via.map TableRef.toJson) ++
    Join.listMember "orderBy" (node.orderBy.map SortTerm.toJson) ++
    [("pathFromBase", .ofTableRefs node.path), ("bridge", .bool node.bridge)]

end JoinNode

namespace NestedJoin

mutual

/-- A join as an object that holds its children. -/
def toJson : NestedJoin → Json
  | ⟨_, node, joins⟩ => .obj (node.members ++ [("joins", .arr (toJsonAll joins))])

/-- The objects of all joins of a list. -/
def toJsonAll : List NestedJoin → List Json
  | [] => []
  | join :: rest => join.toJson :: toJsonAll rest

end

end NestedJoin

/-- A tree as the object of its base. -/
def JoinTree.toJson (tree : JoinTree) : Json :=
  .ofOption NestedJoin.toJson tree.nested?

/-- A child's summary as an object. -/
def ChildJoin.toJson (child : ChildJoin) : Json :=
  .obj [("tableRef", child.table.toJson), ("joinAlias", .str child.joinAlias)]

/-- An entry of the flat list as an object. -/
def FlatJoin.toJson (join : FlatJoin) : Json :=
  .obj [("id", .ofNat join.id),
    ("tableRef", join.table.toJson),
    ("joinAlias", .str join.joinAlias),
    ("select", .ofStrings join.select),
    ("parent", .ofOption Json.ofNat join.parent),
    ("childJoins", .arr (join.children.map ChildJoin.toJson))]

end JoinPlan
