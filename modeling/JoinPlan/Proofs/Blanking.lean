import JoinPlan.Proofs.Placement
import JoinPlan.Proofs.TreeLinks
import JoinPlan.Sql.Compile
import JoinPlan.Sql.Related

/-!
# Values do not steer compilation

The values that conditions compare with are carried through to the statement, and nothing is decided
by them on the way. So it makes no difference whether they are blanked before a query is compiled or
after: places, aliases, bridges, the order of all clauses and even the errors are the same.

## Main definitions

* `Condition.blank`: a condition with empty values, as many as before.
* `Query.blank`, `JoinTree.blank`, `Statement.blank`, `Prepared.blank`: what contains conditions,
  with blank ones.
* `blankRow`: a row with empty values.

## Main results

* `Join.normalize_blank`: the canonical tree of a blanked join is the blanked canonical tree.
* `JoinTree.statement_blank`: so are statements.
* `Query.prepare_blank`: so are compiled queries.
* `Catalog.relatedRows_blank`: so are the statements for related rows.
-/

namespace JoinPlan

/-! ### Conditions -/

mutual

/-- The condition with empty values. -/
def Condition.blank : Condition → Condition
  | .group connective parts => .group connective (Condition.blankAll parts)
  | .membership column operator values => .membership column operator (values.map fun _ => "")
  | .comparison column operator _ => .comparison column operator ""

/-- All conditions of a list with empty values. -/
def Condition.blankAll : List Condition → List Condition
  | [] => []
  | part :: rest => part.blank :: Condition.blankAll rest

end

namespace Condition

theorem blankAll_eq (parts : List Condition) : blankAll parts = parts.map blank := by
  induction parts with
  | nil => rfl
  | cons part rest ih => rw [blankAll, ih, List.map_cons]

mutual

theorem columns_blank : ∀ condition : Condition, condition.blank.columns = condition.columns
  | .group _ parts => by
    rw [blank, columns, columns, columnsOf_blankAll parts]
  | .membership .. => rfl
  | .comparison .. => rfl

theorem columnsOf_blankAll : ∀ parts : List Condition, columnsOf (blankAll parts) = columnsOf parts
  | [] => rfl
  | part :: rest => by
    rw [blankAll, columnsOf, columnsOf, columns_blank part, columnsOf_blankAll rest]

end

theorem check_blank (condition : Condition) (ref : TableRef) (table : Table) :
    condition.blank.check ref table = condition.check ref table := by
  rw [check, check, columns_blank]

end Condition

/-! ### Authored joins -/

mutual

/-- The join with empty values in all conditions. -/
def Join.blank : Join → Join
  | ⟨table, via, select, condition, orderBy, joins⟩ =>
    ⟨table, via, select, condition.map Condition.blank, orderBy, Join.blankAll joins⟩

/-- All joins of a list with empty values. -/
def Join.blankAll : List Join → List Join
  | [] => []
  | join :: rest => join.blank :: Join.blankAll rest

end

namespace Join

variable (join : Join)

@[simp] theorem table_blank : join.blank.table = join.table := by
  obtain ⟨_, _, _, _, _, _⟩ := join
  rw [blank]

@[simp] theorem via_blank : join.blank.via = join.via := by
  obtain ⟨_, _, _, _, _, _⟩ := join
  rw [blank]

@[simp] theorem select_blank : join.blank.select = join.select := by
  obtain ⟨_, _, _, _, _, _⟩ := join
  rw [blank]

@[simp] theorem orderBy_blank : join.blank.orderBy = join.orderBy := by
  obtain ⟨_, _, _, _, _, _⟩ := join
  rw [blank]

@[simp] theorem condition_blank : join.blank.condition = join.condition.map Condition.blank := by
  obtain ⟨_, _, _, _, _, _⟩ := join
  rw [blank]

@[simp] theorem joins_blank : join.blank.joins = blankAll join.joins := by
  obtain ⟨_, _, _, _, _, _⟩ := join
  rw [blank]

theorem tables_blankAll (joins : List Join) :
    (blankAll joins).map (·.table) = joins.map (·.table) := by
  induction joins with
  | nil => rfl
  | cons join rest ih => rw [blankAll, List.map_cons, List.map_cons, ih, table_blank]

theorem checkedSelect_blank (catalog : Catalog) :
    join.blank.checkedSelect catalog = join.checkedSelect catalog := by
  simp only [checkedSelect, table_blank, select_blank]

end Join

theorem checkSiblings_blankAll (trail : List TableRef) (joins : List Join) :
    checkSiblings trail (Join.blankAll joins) = checkSiblings trail joins := by
  rw [checkSiblings, checkSiblings, Join.tables_blankAll]

/-- The join in its place, with empty values. -/
def AuthoredJoin.blank (entry : AuthoredJoin) : AuthoredJoin :=
  { entry with join := entry.join.blank }

section

variable {P : Type} [Penalty P] {catalog : Catalog} {graph : JoinGraph P}

/-- The join above, with its position and with empty values. -/
def blankParent (parent : Option (Nat × AuthoredJoin)) : Option (Nat × AuthoredJoin) :=
  parent.map fun above => (above.1, above.2.blank)

theorem Join.place_blank (parent : Option (Nat × AuthoredJoin)) (join : Join) :
    join.blank.place graph (blankParent parent) = (join.place graph parent).map (·.blank) := by
  cases parent with
  | none => simp [place, blankParent, AuthoredJoin.blank, Except.map]
  | some above =>
    simp only [place, blankParent, Option.map_some, AuthoredJoin.blank, table_blank, via_blank]
    cases graph.resolveRoute above.2.join.table join.table join.via <;> rfl

mutual

theorem Join.placedFrom_blank (parent : Option (Nat × AuthoredJoin)) (position : Nat) :
    ∀ join : Join, join.blank.placedFrom catalog graph (blankParent parent) position =
      (join.placedFrom catalog graph parent position).map (List.map AuthoredJoin.blank)
  | ⟨table, via, select, condition, orderBy, joins⟩ => by
    simp only [placedFrom_eq, place_blank, table_blank, joins_blank, bind_map_eq, map_bind_eq]
    refine bind_congr fun _ => bind_congr fun entry => ?_
    rw [checkSiblings_blankAll]
    refine bind_congr fun _ => ?_
    have hbelow := Join.placedAll_blank (some (position, entry)) (position + 1) joins
    rw [blankParent, Option.map_some] at hbelow
    rw [hbelow, bind_map_eq]
    rfl

theorem Join.placedAll_blank (parent : Option (Nat × AuthoredJoin)) (position : Nat) :
    ∀ joins : List Join, Join.placedAll catalog graph (blankParent parent) position
        (Join.blankAll joins) =
      (Join.placedAll catalog graph parent position joins).map (List.map AuthoredJoin.blank)
  | [] => rfl
  | join :: rest => by
    rw [Join.blankAll, placedAll, placedAll, Join.placedFrom_blank parent position join,
      bind_map_eq, map_bind_eq]
    refine bind_congr fun first => ?_
    rw [List.length_map, Join.placedAll_blank parent _ rest, bind_map_eq, map_bind_eq]
    refine bind_congr fun others => ?_
    rw [← List.map_append]
    rfl

end

/-- The places of joins do not depend on values. -/
theorem Join.placed_blank (base : Join) :
    base.blank.placed catalog graph =
      (base.placed catalog graph).map (List.map AuthoredJoin.blank) :=
  Join.placedFrom_blank none 0 base

end

/-! ### Canonical trees -/

/-- The join of a canonical tree with empty values. -/
def JoinNode.blank (node : JoinNode) : JoinNode :=
  { node with condition := node.condition.map Condition.blank }

/-- The tree with empty values in all conditions. -/
def JoinTree.blank (tree : JoinTree) : JoinTree :=
  ⟨tree.nodes.map JoinNode.blank⟩

namespace JoinTree

variable (tree : JoinTree)

@[simp] theorem length_blank : tree.blank.nodes.length = tree.nodes.length :=
  List.length_map _

@[simp] theorem node?_blank (id : Nat) : tree.blank.node? id = (tree.node? id).map JoinNode.blank :=
  List.getElem?_map

@[simp] theorem childrenOf_blank (id : Nat) : tree.blank.childrenOf id = tree.childrenOf id := by
  rw [childrenOf, childrenOf, node?_blank]
  cases tree.node? id <;> rfl

@[simp] theorem aliasFor_blank (table : TableRef) :
    tree.blank.aliasFor table = tree.aliasFor table := by
  rw [aliasFor, aliasFor, countOf, countOf, blank, List.countP_map]
  rfl

theorem push_blank (node : JoinNode) : (tree.push node).blank = tree.blank.push node.blank := by
  simp [push, blank]

theorem adopt_blank (parent child : Nat) :
    (tree.adopt parent child).blank = tree.blank.adopt parent child := by
  have hnode : ∀ id, (tree.adopt parent child).blank.node? id =
      (tree.blank.adopt parent child).node? id := by
    intro id
    rw [node?_blank, node?_adopt, node?_adopt, node?_blank, Option.map_map, Option.map_map]
    rfl
  exact congrArg JoinTree.mk (List.ext_getElem? hnode)

theorem pushAuthored_blank (entry : AuthoredJoin) (select : List String) :
    (tree.pushAuthored entry select).blank = tree.blank.pushAuthored entry.blank select := by
  rw [pushAuthored, pushAuthored, push_blank, aliasFor_blank]
  simp [JoinNode.blank, AuthoredJoin.blank]

theorem pushBridge_blank (table : TableRef) (behind : List TableRef) :
    (tree.pushBridge table behind).blank = tree.blank.pushBridge table behind := by
  rw [pushBridge, pushBridge, push_blank, aliasFor_blank]
  rfl

theorem pointAt?_blank (preferred : List Nat) (trail : List TableRef) :
    tree.blank.pointAt? preferred trail = tree.pointAt? preferred trail := by
  have htrail : tree.blank.hasTrail trail = tree.hasTrail trail := by
    funext id
    rw [hasTrail, hasTrail, node?_blank]
    cases tree.node? id <;> rfl
  rw [pointAt?, pointAt?, htrail, blank, List.findIdx?_map]
  rfl

theorem attachPoint_blank (preferred : List Nat) (trail : List TableRef) :
    tree.blank.attachPoint preferred trail =
      ((tree.attachPoint preferred trail).1.blank, (tree.attachPoint preferred trail).2) := by
  induction trail with
  | nil => rfl
  | cons table behind ih =>
    rw [attachPoint, attachPoint, pointAt?_blank]
    cases tree.pointAt? preferred (table :: behind) with
    | some id => rfl
    | none =>
      dsimp only
      rw [ih, adopt_blank, pushBridge_blank, length_blank]

theorem attach_blank (id : Nat) (entry : AuthoredJoin) :
    (tree.attach id entry).blank = tree.blank.attach id entry.blank := by
  have hsame : entry.blank.ancestors = entry.ancestors ∧ entry.blank.trail = entry.trail :=
    ⟨rfl, rfl⟩
  rw [attach, attach, hsame.1, hsame.2]
  split_ifs
  · rfl
  · rw [attachPoint_blank, adopt_blank]

theorem attachAll_blank (position : Nat) (placed : List AuthoredJoin) :
    (tree.attachAll position placed).blank =
      tree.blank.attachAll position (placed.map AuthoredJoin.blank) := by
  induction placed generalizing tree position with
  | nil => rfl
  | cons entry rest ih => rw [attachAll, List.map_cons, attachAll, ih, attach_blank]

theorem unattached_blank (placed : List AuthoredJoin) (selects : List (List String)) :
    (unattached placed selects).blank = unattached (placed.map AuthoredJoin.blank) selects := by
  have hall : ∀ (entries : List (AuthoredJoin × List String)) (tree : JoinTree),
      (entries.foldl (fun tree entry => pushAuthored tree entry.1 entry.2) tree).blank =
        (entries.map (Prod.map AuthoredJoin.blank id)).foldl
          (fun tree entry => pushAuthored tree entry.1 entry.2) tree.blank := by
    intro entries
    induction entries with
    | nil => exact fun _ => rfl
    | cons entry rest ih =>
      intro tree
      rw [List.foldl_cons, ih, pushAuthored_blank]
      rfl
  rw [unattached, unattached, hall, List.zip_map_left]
  rfl

theorem ofPlaced_blank (placed : List AuthoredJoin) (selects : List (List String)) :
    (ofPlaced placed selects).blank = ofPlaced (placed.map AuthoredJoin.blank) selects := by
  rw [ofPlaced, ofPlaced, attachAll_blank, unattached_blank]

end JoinTree

/-- **The canonical tree of a blanked join** is the blanked canonical tree. -/
theorem Join.normalize_blank {P : Type} [Penalty P] (catalog : Catalog) (graph : JoinGraph P)
    (base : Join) :
    base.blank.normalize catalog graph = (base.normalize catalog graph).map JoinTree.blank := by
  rw [normalize, normalize, table_blank, placed_blank, map_bind_eq]
  refine bind_congr fun _ => ?_
  rw [bind_map_eq, map_bind_eq]
  refine bind_congr fun placed => ?_
  rw [List.mapM_map, map_bind_eq]
  have hselects : (fun entry : AuthoredJoin => entry.join.checkedSelect catalog) ∘
      AuthoredJoin.blank = fun entry => entry.join.checkedSelect catalog :=
    funext fun entry => entry.join.checkedSelect_blank catalog
  rw [hselects]
  refine bind_congr fun selects => ?_
  rw [← JoinTree.ofPlaced_blank]
  rfl

/-! ### Statements -/

/-- The filter with empty values. -/
def Filter.blank : Filter → Filter
  | condition qualifier c => condition qualifier c.blank
  | equals column _ => equals column ""
  | isNull column => isNull column

/-- What a join contributes, with empty values. -/
def NodeClauses.blank (clauses : NodeClauses) : NodeClauses :=
  { clauses with filters := clauses.filters.map Filter.blank }

/-- The statement with empty values. -/
def Statement.blank (statement : Statement) : Statement :=
  { statement with filters := statement.filters.map Filter.blank }

theorem JoinNode.filters_blank (node : JoinNode) (table : Table) :
    node.blank.filters table = (node.filters table).map (List.map Filter.blank) := by
  have hcondition : node.blank.condition = node.condition.map Condition.blank := rfl
  rw [JoinNode.filters, JoinNode.filters, hcondition]
  cases node.condition with
  | none => rfl
  | some condition =>
    simp only [Option.map_some, Condition.check_blank, map_bind_eq]
    rfl

theorem JoinTree.joinsInOrder_blank (tree : JoinTree) :
    tree.blank.joinsInOrder = tree.joinsInOrder.map JoinNode.blank := by
  have hfrom : ∀ (steps : Nat) (stack : List Nat),
      tree.blank.preOrderFrom steps stack = tree.preOrderFrom steps stack := by
    intro steps
    induction steps with
    | zero => exact fun _ => rfl
    | succ steps ih =>
      intro stack
      cases stack with
      | nil => rfl
      | cons id stack => rw [preOrderFrom, preOrderFrom, ih, childrenOf_blank]
  rw [joinsInOrder, joinsInOrder, preOrder, preOrder, hfrom, length_blank, List.map_filterMap]
  exact congrArg (List.filterMap · _) (funext tree.node?_blank)

theorem JoinTree.nodeClauses_blank (catalog : Catalog) (tree : JoinTree) (node : JoinNode) :
    tree.blank.nodeClauses catalog node.blank =
      (tree.nodeClauses catalog node).map NodeClauses.blank := by
  have hbelow : node.children.filterMap tree.blank.node? =
      (node.children.filterMap tree.node?).map JoinNode.blank := by
    rw [List.map_filterMap]
    exact congrArg (List.filterMap · _) (funext tree.node?_blank)
  have hclause : node.blank.joinClause catalog ∘ JoinNode.blank = node.joinClause catalog := rfl
  have hkeys : ∀ table, node.blank.sortKeys table = node.sortKeys table := fun _ => rfl
  have hsame : node.blank.table = node.table ∧ node.blank.children = node.children := ⟨rfl, rfl⟩
  rw [nodeClauses, nodeClauses, map_bind_eq, hsame.1, hsame.2]
  refine bind_congr fun table => ?_
  rw [JoinNode.filters_blank, bind_map_eq, map_bind_eq, hkeys]
  refine bind_congr fun filters => ?_
  rw [map_bind_eq, hbelow, List.mapM_map, hclause]
  refine bind_congr fun keys => ?_
  rw [map_bind_eq]
  rfl

/-- **The statement of a blanked tree** is the blanked statement. -/
theorem JoinTree.statement_blank (catalog : Catalog) (tree : JoinTree) :
    tree.blank.statement catalog = (tree.statement catalog).map Statement.blank := by
  have hclauses : tree.blank.joinsInOrder.mapM (tree.blank.nodeClauses catalog) =
      (tree.joinsInOrder.mapM (tree.nodeClauses catalog)).map (List.map NodeClauses.blank) := by
    rw [joinsInOrder_blank, List.mapM_map, ← mapM_map_eq]
    exact congrArg (List.mapM · _) (funext fun node => tree.nodeClauses_blank catalog node)
  rw [statement, statement, hclauses, bind_map_eq, map_bind_eq]
  refine bind_congr fun clauses => ?_
  have houtputs : (clauses.map NodeClauses.blank).flatMap (·.outputs) =
      clauses.flatMap (·.outputs) := List.flatMap_map ..
  have hkeys : (clauses.map NodeClauses.blank).flatMap (·.sortKeys) =
      clauses.flatMap (·.sortKeys) := List.flatMap_map ..
  have hjoins : (clauses.map NodeClauses.blank).flatMap (·.joins) =
      clauses.flatMap (·.joins) := List.flatMap_map ..
  have hgroupBy : (clauses.map NodeClauses.blank).flatMap (·.groupBy) =
      clauses.flatMap (·.groupBy) := List.flatMap_map ..
  have hfilters : (clauses.map NodeClauses.blank).flatMap (·.filters) =
      (clauses.flatMap (·.filters)).map Filter.blank := by
    rw [List.flatMap_map, List.map_flatMap]
    rfl
  rw [houtputs, hkeys, hjoins, hgroupBy, hfilters, node?_blank]
  dsimp only
  split
  · rfl
  · rw [map_bind_eq]
    refine bind_congr fun _ => ?_
    cases tree.node? root <;> rfl

/-! ### Queries -/

/-- The query with empty values. -/
def Query.blank (query : Query) : Query :=
  { query with base := query.base.blank }

/-- The compiled query with empty values. -/
def Prepared.blank (prepared : Prepared) : Prepared :=
  { prepared with statement := prepared.statement.blank, tree := prepared.tree.blank }

/-- **A blanked query compiles to the blanked statement**, or fails with the same error. -/
theorem Query.prepare_blank (catalog : Catalog) (query : Query) :
    query.blank.prepare catalog = (query.prepare catalog).map Prepared.blank := by
  have hnormal := query.base.normalize_blank catalog (JoinGraph.ofNames catalog [])
  rw [prepare, prepare, map_bind_eq, Query.blank, hnormal, bind_map_eq]
  refine bind_congr fun tree => ?_
  rw [JoinTree.statement_blank, bind_map_eq, map_bind_eq]
  rfl

/-! ### Related rows -/

/-- A value that was replaced by the empty text, unless it is no value at all. -/
def Json.blank : Json → Json
  | .null => .null
  | _ => .str ""

/-- The row with empty values in the place of all that are not null. -/
def blankRow (row : Row) : Row :=
  row.map fun entry => (entry.1, entry.2.blank)

theorem rowFilter_blank (column : QualifiedColumn) (value : Json) :
    rowFilter column value.blank = (rowFilter column value).blank := by
  cases value <;> rfl

theorem rowFilters_blank (ref : TableRef) (table : Table) (row : Row) :
    rowFilters ref table (blankRow row) =
      (rowFilters ref table row).map (List.map Filter.blank) := by
  rw [rowFilters, rowFilters, blankRow, List.mapM_map, ← mapM_map_eq]
  refine congrArg (List.mapM · row) (funext fun entry => ?_)
  dsimp only [Function.comp]
  split_ifs
  · rw [rowFilter_blank]
    rfl
  · rfl

/-- **A blanked row makes the blanked statement**, or fails with the same error. -/
theorem Catalog.relatedRows_blank (catalog : Catalog) (localTable : TableRef) (row : Row)
    (foreignTable : TableRef) :
    catalog.relatedRows localTable (blankRow row) foreignTable =
      (catalog.relatedRows localTable row foreignTable).map Statement.blank := by
  rw [relatedRows, relatedRows, map_bind_eq]
  refine bind_congr fun table => ?_
  rw [map_bind_eq]
  refine bind_congr fun _ => ?_
  rw [map_bind_eq]
  refine bind_congr fun path => ?_
  rw [map_bind_eq]
  refine bind_congr fun joins => ?_
  rw [rowFilters_blank, bind_map_eq, map_bind_eq]
  rfl

end JoinPlan
