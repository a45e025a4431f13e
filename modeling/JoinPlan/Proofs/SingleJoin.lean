import JoinPlan.Proofs.DistinctAliases
import JoinPlan.Proofs.Refusals
import JoinPlan.Proofs.RelatedRows
import JoinPlan.Proofs.SiblingOrder

/-!
# Related rows and a single join

The rows related to a row can be asked for by a query as well, which joins the foreign table to the
local one without waypoints. Both go the same way. The search is the same, so either both are
refused for there being no path or neither is. The query takes the way into a tree, whose joins have
trails, aliases and places, and reads it off that tree by a traversal. But all joins of the tree
stand on the way to the foreign one, each right below the one before it, so they are introduced in
just that order. And which columns are equated is a question of the two tables, not of what they
are called.

## Main definitions

* `Join.JoinsOnly`: a query for two tables.
* `JoinTree.OneWay`: all joins of a tree stand on the way to one of them.
* `Statement.EquatesAt`: which columns a clause equates, of its table and the one before it.
* `Statement.Follows`: a statement joins the tables of a way, each to the one before it.
* `Catalog.FindsNoPath`: there is no path between two tables to be found.
* `Prepared.SharesRoute`: a query and a statement for related rows join the same tables over the
  same columns.

## Main results

* `JoinTree.OneWay.pathOf?_introduced`: the joins are introduced as they stand on the way.
* `JoinTree.OneWay.follows`, `Catalog.follows_of_relatedRows`: statements follow their ways.
* `Catalog.equate_named`: what is equated does not depend on names.
* `Catalog.sharesRoute_relatedRows`: related rows and a single join go the same way.
-/

namespace JoinPlan

variable {P : Type} [Penalty P] {catalog : Catalog} {graph : JoinGraph P} {base child : Join}
  {tree : JoinTree} {source target : TableRef} {route : List TableRef}

/-! ### Routes without waypoints -/

/-- A route without waypoints between two tables is the cheapest path. -/
theorem Catalog.resolveRoute_eq_pathBeyond (hne : source ≠ target) :
    (JoinGraph.ofNames catalog []).resolveRoute source target [] =
      (catalog.pathBeyond source target).map (source :: ·) := by
  have hfault : waypointFault? source target [] = none := by
    simp [waypointFault?]
  rw [JoinGraph.resolveRoute, hfault, pathBeyond, if_neg hne, JoinGraph.shortestPath]
  cases htrail : (JoinGraph.ofNames catalog []).cheapestTrail? source target with
  | none => simp [JoinGraph.legs?, JoinGraph.leg?, hne, htrail, Except.map]
  | some trail => simp [JoinGraph.legs?, JoinGraph.leg?, hne, htrail, Except.map]

/-! ### Two joins in their places -/

/-- A query for two tables: the one is joined to the other without waypoints, and that is all. -/
structure Join.JoinsOnly (base child : Join) : Prop where
  joins : base.joins = [child]
  via : child.via = []
  leaf : child.joins = []

theorem Join.JoinsOnly.preOrder_eq (h : base.JoinsOnly child) : base.preOrder = [base, child] := by
  rw [Join.preOrder_eq, h.joins, Join.preOrderAll, Join.preOrder_eq, h.leaf]
  rfl

/-- Both tables are looked up before the way from the one to the other. -/
theorem Join.JoinsOnly.placed_eq (h : base.JoinsOnly child) :
    base.placed catalog graph =
      catalog.findTable base.table >>= fun _ => catalog.findTable child.table >>= fun _ =>
        (graph.resolveRoute base.table child.table []).map fun route =>
          [⟨base, [base.table], []⟩, ⟨child, (route.drop 1).reverse ++ [base.table], [0]⟩] := by
  rw [Join.placed, Join.placedFrom_eq, h.joins]
  refine bind_congr_of_ok fun _ _ => ?_
  rw [Join.place, ok_bind_eq, Join.placedAll, Join.placedFrom_eq, h.leaf, Join.place, h.via]
  dsimp only [Join.placedAll]
  cases catalog.findTable child.table with
  | error e => rfl
  | ok table =>
    cases graph.resolveRoute base.table child.table [] with
    | error e => rfl
    | ok route => rfl

namespace JoinTree

variable {placed : List AuthoredJoin} {authored bridges : List JoinNode}
  {way beyond : List TableRef}

theorem paths_eq (h : List.Forall₂ JoinNode.StandsFor authored placed) :
    authored.map JoinNode.path = placed.map fun entry => entry.trail.reverse :=
  map_eq_map_of_forall₂ h fun _ _ hstands => congrArg List.reverse hstands.trail

/-- The tree of two joins is built from the route between them. -/
theorem exists_built_of_joinsOnly (h : base.JoinsOnly child)
    (htree : base.normalize catalog graph = .ok tree) :
    ∃ route placed authored bridges,
      graph.resolveRoute base.table child.table [] = .ok route ∧
      Built graph base placed authored bridges tree ∧
      authored.map JoinNode.path = [[base.table], route] := by
  obtain ⟨_, placed, selects, -, hplaced, hselects, rfl⟩ := normalize_eq_ok_iff.mp htree
  obtain ⟨bridges, hbuilt⟩ := built_ofPlaced (Join.placement_of_placed hplaced)
    (mapM_eq_ok_iff.mp hselects).length_eq
  rw [h.placed_eq] at hplaced
  obtain ⟨_, -, hplaced⟩ := bind_eq_ok_iff.mp hplaced
  obtain ⟨_, -, hplaced⟩ := bind_eq_ok_iff.mp hplaced
  obtain ⟨route, hroute, hplaced⟩ := map_eq_ok_iff.mp hplaced
  obtain ⟨rest, rfl, -⟩ := JoinGraph.path_of_resolveRoute hroute
  refine ⟨_, placed, _, bridges, hroute, hbuilt, ?_⟩
  rw [paths_eq hbuilt.standsFor, ← hplaced]
  simp

/-! ### Joins on the way to one of them -/

/-- All joins of the tree stand on the way from the base to one of them, each at another place. -/
structure OneWay (way : List TableRef) (tree : JoinTree) : Prop where
  base : tree.pathOf? root = some (way.take 1)
  onWay : ∀ id path, tree.pathOf? id = some path → path ≠ [] ∧ path <+: way
  nodup : (tree.nodes.map JoinNode.path).Nodup
  far : ∃ id, tree.pathOf? id = some way

/-- The way from the base leads to the other join. -/
theorem Built.pathOf?_one (h : Built graph base placed authored bridges tree)
    (hpaths : authored.map JoinNode.path = [[base.table], way]) : tree.pathOf? 1 = some way := by
  have hone := congrArg (·[1]?) hpaths
  obtain ⟨node, hnode, rfl⟩ := Option.map_eq_some_iff.mp (List.getElem?_map.symm.trans hone)
  have hlt := (List.getElem?_eq_some_iff.mp hnode).1
  rw [pathOf?_eq_some_iff, h.holds.trailOf?_of_lt hlt, hnode, Option.map_some, JoinNode.path,
    List.reverse_reverse]

/-- The joins from a base to another one, and the bridges between the two, stand on one way. -/
theorem Built.oneWay (h : Built graph base placed authored bridges tree) (hbeyond : beyond ≠ [])
    (hpaths : authored.map JoinNode.path = [[base.table], base.table :: beyond]) :
    tree.OneWay (base.table :: beyond) := by
  have hends : ∀ far ∈ authored, far.path <+: base.table :: beyond := by
    intro far hfar
    have hmem : far.path ∈ authored.map JoinNode.path := List.mem_map_of_mem hfar
    rw [hpaths, List.mem_pair] at hmem
    rcases hmem with hpath | hpath
    · exact hpath ▸ ⟨beyond, rfl⟩
    · exact hpath ▸ List.prefix_rfl
  refine ⟨?_, fun id path hpath => ?_, h.nodup_paths ?_, 1, h.pathOf?_one hpaths⟩
  · exact pathOf?_eq_some_iff.mpr h.trailOf?_zero
  · obtain ⟨node, hnode, rfl⟩ := Option.map_eq_some_iff.mp hpath
    obtain ⟨behind, hbehind⟩ := (h.leadsBack hnode).eq_cons
    refine ⟨by simp [JoinNode.path, hbehind], ?_⟩
    rcases List.mem_append.mp (List.mem_of_getElem? (h.getElem?_contents hnode)) with hmem | hmem
    · exact hends node.unlinked hmem
    · obtain ⟨far, hfar, hsuffix⟩ := h.holds.onWay _ hmem
      exact (List.reverse_prefix.mpr hsuffix).trans (hends far hfar)
  · rw [h.authoredPaths_eq, hpaths, List.nodup_cons, List.mem_singleton]
    refine ⟨fun hsame => hbeyond ?_, List.nodup_singleton _⟩
    exact (List.cons.inj hsame).2.symm

/-- No join is introduced twice. -/
theorem introduced_inj (hl : tree.Linked) (hloose : ∀ id, tree.IsLoose id ↔ id = root)
    {i j id : Nat} (hi : tree.introduced[i]? = some id) (hj : tree.introduced[j]? = some id) :
    i = j :=
  (List.getElem?_inj (List.getElem?_eq_some_iff.mp hi).1 (nodup_introduced hl hloose)).mp
    (hi.trans hj.symm)

namespace OneWay

variable {id : Nat}

/-- The joins on a way have their parents right before them. -/
theorem pathOf?_parent (h : tree.OneWay way) (hl : tree.Linked) {parent n : Nat}
    (hparent : tree.parentOf? id = some parent) (hpath : tree.pathOf? parent = some (way.take n))
    (hn : n ≤ way.length) : tree.pathOf? id = some (way.take (n + 1)) := by
  obtain ⟨table, behind, hid, hbehind⟩ := hl.beyond id parent hparent
  rw [pathOf?_eq_some_iff, hbehind, Option.some_inj] at hpath
  have hlonger : tree.pathOf? id = some (way.take n ++ [table]) := by
    rw [pathOf?_eq_some_iff, hid, hpath, List.reverse_append, List.reverse_singleton,
      List.singleton_append]
  have hprefix := (h.onWay id _ hlonger).2
  rw [hlonger, List.prefix_iff_eq_take.mp hprefix, List.length_append, List.length_singleton,
    List.length_take, Nat.min_eq_left hn]

/-- **The joins are introduced as they stand on the way.** -/
theorem pathOf?_introduced (h : tree.OneWay way) (hl : tree.Linked)
    (hloose : ∀ id, tree.IsLoose id ↔ id = root) {i : Nat}
    (hid : tree.introduced[i]? = some id) :
    tree.pathOf? id = some (way.take (i + 1)) ∧ i < way.length := by
  induction i using Nat.strongRecOn generalizing id with
  | ind i ih =>
    have hpos : 0 < way.length := by
      obtain ⟨far, hfar⟩ := h.far
      exact List.length_pos_iff.mpr (h.onWay far way hfar).1
    rcases (parentsFirst_introduced hl hloose).exists_earlier hid with
      rfl | ⟨j, parent, hj, hjth, hparent⟩
    · obtain rfl : i = 0 := introduced_inj hl hloose hid rfl
      exact ⟨h.base, hpos⟩
    · obtain ⟨habove, hlt⟩ := ih j hj hjth
      have hpath := h.pathOf?_parent hl hparent habove hlt
      -- the join that is introduced right after the parent has the same path
      obtain rfl : i = j + 1 := by
        rcases Nat.lt_or_ge (j + 1) i with hbefore | hafter
        · have hi := (List.getElem?_eq_some_iff.mp hid).1
          have hnext := List.getElem?_eq_getElem (Nat.lt_trans hbefore hi)
          have hsame := pathOf?_inj h.nodup (ih (j + 1) hbefore hnext).1 hpath
          exact (introduced_inj hl hloose (hsame ▸ hnext) hid).symm
        · omega
      refine ⟨hpath, Nat.lt_of_le_of_ne hlt fun hend => ?_⟩
      -- nothing is introduced after the last join of the way
      rw [List.take_of_length_le (by omega)] at hpath habove
      have hself := introduced_inj hl hloose hid (pathOf?_inj h.nodup hpath habove ▸ hjth)
      omega

/-- All of the way is introduced. -/
theorem length_introduced (h : tree.OneWay way) (hl : tree.Linked)
    (hloose : ∀ id, tree.IsLoose id ↔ id = root) : tree.introduced.length = way.length := by
  refine Nat.le_antisymm (Nat.le_of_not_lt fun hlt => ?_) ?_
  · have hlast := (h.pathOf?_introduced hl hloose (List.getElem?_eq_getElem hlt)).2
    exact Nat.lt_irrefl _ hlast
  · obtain ⟨far, hfar⟩ := h.far
    have hmem : far ∈ tree.introduced := by
      rw [(perm_introduced hl hloose).mem_iff, List.mem_range]
      exact lt_length_of_trailOf? (pathOf?_eq_some_iff.mp hfar)
    obtain ⟨i, hi⟩ := List.getElem?_of_mem hmem
    have hlength := (h.pathOf?_introduced hl hloose hi).1
    rw [hfar, Option.some_inj] at hlength
    replace hlength := congrArg List.length hlength
    rw [List.length_take] at hlength
    have hlt := (List.getElem?_eq_some_iff.mp hi).1
    omega

/-- The parent of a join is the one right before it on the way. -/
theorem parent_eq (h : tree.OneWay way) (hl : tree.Linked) {parent before i : Nat}
    (hparent : tree.parentOf? id = some parent)
    (hbefore : tree.pathOf? before = some (way.take (i + 1)))
    (hid : tree.pathOf? id = some (way.take (i + 2))) (hi : i + 1 < way.length) :
    parent = before := by
  obtain ⟨table, behind, htrail, habove⟩ := hl.beyond id parent hparent
  rw [pathOf?_eq_some_iff, htrail, Option.some_inj, List.take_succ_eq_append_getElem hi,
    List.reverse_append] at hid
  refine pathOf?_inj h.nodup ?_ hbefore
  rw [pathOf?_eq_some_iff, habove, (List.cons.inj hid).2]
  rfl

end OneWay

/-- The path of a join ends with its table. -/
theorem Built.getElem?_path (h : Built graph base placed authored bridges tree) {id i : Nat}
    {node : JoinNode} (hnode : tree.node? id = some node)
    (hpath : tree.pathOf? id = some (way.take (i + 1))) (hi : i < way.length) :
    way[i]? = some node.table := by
  rw [pathOf?_eq_some_iff, trailOf?_eq hnode, Option.some_inj] at hpath
  have hhead := (h.leadsBack hnode).head
  rw [hpath, List.head?_reverse, List.take_succ_eq_append_getElem hi, List.getLast?_concat] at hhead
  rw [List.getElem?_eq_getElem hi, hhead]

end JoinTree

/-! ### Equations under other names -/

/-- **Which columns are equated does not depend on what the tables are called.** -/
theorem Catalog.equate_named {parent child : TableRef} {parentName childName : String}
    {on : Equation} (h : catalog.equate parent parentName child childName = .ok on) :
    ∃ x y, ∀ above below,
      catalog.equate parent above child below = .ok ⟨⟨below, x⟩, ⟨above, y⟩⟩ := by
  simp only [equate]
  obtain ⟨parentTable, hparent, h⟩ := bind_eq_ok_iff.mp h
  simp only [hparent, ok_bind_eq]
  split at h
  · rename_i column key hkey
    exact ⟨key.foreignColumn, column.name, fun _ _ => rfl⟩
  · obtain ⟨childTable, hchild, h⟩ := bind_eq_ok_iff.mp h
    simp only [hchild, ok_bind_eq]
    split at h
    · rename_i column key hkey
      exact ⟨column.name, key.foreignColumn, fun _ _ => rfl⟩
    · cases h

/-! ### Clauses -/

/-- What the columns of a table are qualified by in a statement. -/
def qualifierOf (source : TableRef × Option String) : String :=
  source.2.getD source.1.text

/-- A clause of the statement equates a column of its table with one of the table before it, each
under the name of its table. -/
def Statement.EquatesAt (statement : Statement) (i : Nat) (x y : String) : Prop :=
  ∃ before after clause, statement.sources[i]? = some before ∧
    statement.sources[i + 1]? = some after ∧ statement.joins[i]? = some clause ∧
    clause.on = ⟨⟨qualifierOf after, x⟩, ⟨qualifierOf before, y⟩⟩

theorem Statement.tables_eq (statement : Statement) :
    statement.tables = statement.sources.map (·.1) := by
  rw [tables, sources, List.map_cons, List.map_map]
  rfl

/-- The statement joins the tables of a way, each to the one before it over columns that the two
determine. -/
structure Statement.Follows (catalog : Catalog) (way : List TableRef) (statement : Statement) :
    Prop where
  tables : statement.tables = way
  clauses : ∀ i before after, way[i]? = some before → way[i + 1]? = some after →
    ∃ x y, (∀ above below, catalog.equate before above after below =
      .ok ⟨⟨below, x⟩, ⟨above, y⟩⟩) ∧ statement.EquatesAt i x y

/-- A statement for related rows follows the path. -/
theorem Catalog.follows_of_relatedRows {row : Row} {statement : Statement}
    (h : catalog.relatedRows source row target = .ok statement) :
    ∃ path, catalog.pathBeyond source target = .ok path ∧
      statement.Follows catalog (source :: path) := by
  obtain ⟨_, _, path, joins, -, -, hpath, hjoins, -, rfl⟩ := relatedRows_eq_ok_iff.mp h
  have htables : joins.map (·.table) = path := tables_of_joinPath hjoins
  have hsources : (source, none) :: joins.map (fun clause => (clause.table, clause.joinAlias)) =
      (source :: path).map fun table => (table, none) := by
    rw [List.map_cons, ← htables, List.map_map]
    refine congrArg _ (List.map_congr_left fun clause hclause => ?_)
    exact congrArg _ (unaliased_of_joinPath hjoins hclause)
  refine ⟨path, hpath, congrArg (source :: ·) htables, fun i before after hbefore hafter => ?_⟩
  have hjoined : (joins.map (·.table))[i]? = some after := htables ▸ hafter
  rw [List.getElem?_map] at hjoined
  obtain ⟨clause, hclause, rfl⟩ := Option.map_eq_some_iff.mp hjoined
  obtain ⟨above, habove, -, hon⟩ := of_getElem?_joinPath hjoins hclause
  obtain rfl : above = before := Option.some_inj.mp (habove.symm.trans hbefore)
  obtain ⟨x, y, hnamed⟩ := equate_named hon
  refine ⟨x, y, hnamed, (above, none), (clause.table, none), clause, ?_, ?_, hclause, ?_⟩
  · rw [Statement.sources, hsources, List.getElem?_map, hbefore, Option.map_some]
  · rw [Statement.sources, hsources, List.getElem?_map, hafter, Option.map_some]
  · exact Except.ok.inj (hon.symm.trans (hnamed _ _))

namespace JoinTree

variable {placed : List AuthoredJoin} {authored bridges : List JoinNode} {way : List TableRef}
  {statement : Statement}

/-- The joins of a way are in a statement as they stand on it. -/
theorem OneWay.exists_source (h : tree.OneWay way)
    (hbuilt : Built graph base placed authored bridges tree)
    (hstatement : tree.statement catalog = .ok statement) {i : Nat} {table : TableRef}
    (htable : way[i]? = some table) :
    ∃ id node, tree.introduced[i]? = some id ∧ tree.pathOf? id = some (way.take (i + 1)) ∧
      tree.node? id = some node ∧ node.table = table ∧
      statement.sources[i]? = some (table, some node.joinAlias) := by
  have hlt := (List.getElem?_eq_some_iff.mp htable).1
  have hlt' : i < tree.introduced.length :=
    (h.length_introduced hbuilt.linked hbuilt.loose).symm ▸ hlt
  have hid := List.getElem?_eq_getElem hlt'
  have hpath := (h.pathOf?_introduced hbuilt.linked hbuilt.loose hid).1
  obtain ⟨source, hsource, node, hnode, rfl⟩ :=
    getElem?_of_forall₂ (forall₂_sources hbuilt.linked hstatement) hid
  obtain rfl : table = node.table :=
    Option.some_inj.mp (htable.symm.trans (hbuilt.getElem?_path hnode hpath hlt))
  exact ⟨_, node, hid, hpath, hnode, rfl, hsource⟩

/-- **A statement follows the way that all joins of its tree stand on.** -/
theorem OneWay.follows (h : tree.OneWay way)
    (hbuilt : Built graph base placed authored bridges tree)
    (hstatement : tree.statement catalog = .ok statement) : statement.Follows catalog way := by
  constructor
  case tables =>
    have hlength : statement.sources.length = way.length := by
      rw [← (forall₂_sources hbuilt.linked hstatement).length_eq,
        h.length_introduced hbuilt.linked hbuilt.loose]
    rw [statement.tables_eq]
    refine List.ext_getElem (by rw [List.length_map, hlength]) fun i hi hi' => ?_
    obtain ⟨_, _, -, -, -, -, hsource⟩ :=
      h.exists_source hbuilt hstatement (List.getElem?_eq_getElem hi')
    rw [List.getElem_map, (List.getElem?_eq_some_iff.mp hsource).2]
  case clauses =>
    intro i before after hbefore hafter
    have hlt := (List.getElem?_eq_some_iff.mp hafter).1
    obtain ⟨above, node, -, habovePath, hnode, rfl, hnodeSource⟩ :=
      h.exists_source hbuilt hstatement hbefore
    obtain ⟨id, below, hid, hpath, hbelow, rfl, hbelowSource⟩ :=
      h.exists_source hbuilt hstatement hafter
    -- the clause in this place joins this very join to its parent, which is the one before it
    rw [← List.getElem?_tail] at hid
    obtain ⟨clause, hclause, below', parent, node', hbelow', hparent, hnode', hjoin⟩ :=
      getElem?_of_forall₂ (forall₂_joins hbuilt.linked hstatement) hid
    obtain rfl := h.parent_eq hbuilt.linked hparent habovePath hpath hlt
    cases hbelow.symm.trans hbelow'
    cases hnode.symm.trans hnode'
    obtain ⟨on, hon, rfl⟩ := JoinNode.joinClause_eq_ok_iff.mp hjoin
    obtain ⟨x, y, hnamed⟩ := Catalog.equate_named hon
    exact ⟨x, y, hnamed, _, _, _, hnodeSource, hbelowSource, hclause,
      Except.ok.inj (hon.symm.trans (hnamed _ _))⟩

end JoinTree

/-! ### Whether there is a path -/

section

variable {a b : TableRef}

/-- The two tables exist, the one has keys, and the search for a path to the other fails. -/
def Catalog.FindsNoPath (catalog : Catalog) (source target a b : TableRef) : Prop :=
  (∃ table, catalog.findLinkedTable source = .ok table) ∧
    (∃ table, catalog.findTable target = .ok table) ∧
    catalog.pathBeyond source target = .error (.noPath a b)

theorem ne_noPath_of_isPlain (e : QueryError) (h : e.IsPlain) : e ≠ .noPath a b := by
  rintro rfl
  exact h

/-- Equating columns does not search for a path. -/
theorem Catalog.failsWith_equate_ne_noPath (parent : TableRef) (parentName : String)
    (child : TableRef) (childName : String) :
    FailsWith (· ≠ .noPath a b) (catalog.equate parent parentName child childName) :=
  failsWith_equate ne_noPath_of_isPlain (fun _ _ => nofun) parent parentName child childName

theorem Catalog.relatedRows_eq_noPath_iff {row : Row} :
    catalog.relatedRows source row target = .error (.noPath a b) ↔
      catalog.FindsNoPath source target a b := by
  have hplain := ne_noPath_of_isPlain (a := a) (b := b)
  constructor
  · intro h
    obtain ⟨table, hlinked, h⟩ :=
      (catalog.failsWith_findLinkedTable hplain source).bind_eq_error_iff.mp h
    obtain ⟨foreign, hforeign, h⟩ :=
      (catalog.failsWith_findTable hplain target).bind_eq_error_iff.mp h
    refine ⟨⟨table, hlinked⟩, ⟨foreign, hforeign⟩, ?_⟩
    refine (FailsWith.bind_eq_error_iff_left fun path => ?_).mp h
    refine (failsWith_joinPath (List.isChain_iff_getElem.mpr fun _ _ => ?_)).bind fun _ _ => ?_
    · exact failsWith_equate_ne_noPath _ _ _ _
    · exact (failsWith_rowFilters hplain _ _ _).bind fun _ _ => .ok _
  · rintro ⟨⟨table, hlinked⟩, ⟨foreign, hforeign⟩, hpath⟩
    rw [relatedRows, hlinked, ok_bind_eq, hforeign, ok_bind_eq, hpath]
    rfl

theorem Join.normalize_eq_noPath_iff (h : base.JoinsOnly child)
    (hne : base.table ≠ child.table) :
    base.normalize catalog (JoinGraph.ofNames catalog []) = .error (.noPath a b) ↔
      catalog.FindsNoPath base.table child.table a b := by
  have hplain := ne_noPath_of_isPlain (a := a) (b := b)
  constructor
  · intro herror
    obtain ⟨table, hlinked, herror⟩ :=
      (catalog.failsWith_findLinkedTable hplain base.table).bind_eq_error_iff.mp herror
    have hplaced : base.placed catalog (JoinGraph.ofNames catalog []) = .error (.noPath a b) := by
      refine (FailsWith.bind_eq_error_iff_left fun placed => ?_).mp herror
      refine FailsWith.bind (.mapM fun entry _ => ?_) fun _ _ => .ok _
      exact entry.join.failsWith_checkedSelect hplain catalog
    rw [h.placed_eq] at hplaced
    obtain ⟨_, -, hplaced⟩ :=
      (catalog.failsWith_findTable hplain base.table).bind_eq_error_iff.mp hplaced
    obtain ⟨foreign, hforeign, hroute⟩ :=
      (catalog.failsWith_findTable hplain child.table).bind_eq_error_iff.mp hplaced
    rw [map_eq_error_iff, Catalog.resolveRoute_eq_pathBeyond hne, map_eq_error_iff] at hroute
    exact ⟨⟨table, hlinked⟩, ⟨foreign, hforeign⟩, hroute⟩
  · rintro ⟨⟨table, hlinked⟩, ⟨foreign, hforeign⟩, hpath⟩
    have hbase := (Catalog.findLinkedTable_eq_ok_iff.mp hlinked).1
    rw [normalize, hlinked, ok_bind_eq, h.placed_eq, hbase, ok_bind_eq, hforeign, ok_bind_eq,
      Catalog.resolveRoute_eq_pathBeyond hne, hpath]
    rfl

/-- Once there is a tree no path is searched for. -/
theorem Query.prepare_eq_noPath_iff {query : Query} :
    query.prepare catalog = .error (.noPath a b) ↔
      query.base.normalize catalog (JoinGraph.ofNames catalog []) = .error (.noPath a b) := by
  refine FailsWith.bind_eq_error_iff_left fun tree => ?_
  refine FailsWith.bind (JoinTree.failsWith_statement ne_noPath_of_isPlain ?_) fun _ _ => .ok _
  exact fun _ _ _ _ _ _ _ => Catalog.failsWith_equate_ne_noPath _ _ _ _

end

/-! ### Sharing a route -/

/-- Statements that follow one way equate the same columns. -/
theorem Statement.Follows.equatesAt {way : List TableRef} {statement other : Statement}
    (h : statement.Follows catalog way) (hother : other.Follows catalog way) {i : Nat}
    (hi : i + 1 < way.length) :
    ∃ x y, statement.EquatesAt i x y ∧ other.EquatesAt i x y := by
  have hbefore := List.getElem?_eq_getElem (Nat.lt_of_succ_lt hi)
  have hafter := List.getElem?_eq_getElem hi
  obtain ⟨x, y, hnamed, hequates⟩ := h.clauses i _ _ hbefore hafter
  obtain ⟨u, v, hagain, hequates'⟩ := hother.clauses i _ _ hbefore hafter
  have hsame := Except.ok.inj ((hnamed "" "").symm.trans (hagain "" ""))
  simp only [Equation.mk.injEq, QualifiedColumn.mk.injEq, true_and] at hsame
  obtain ⟨rfl, rfl⟩ := hsame
  exact ⟨x, y, hequates, hequates'⟩

/-- The query joins the tables of the statement for related rows in the same order and over the
same columns, and these tables are the path of the foreign one in its tree. -/
structure Prepared.SharesRoute (target : TableRef) (related : Statement) (prepared : Prepared) :
    Prop where
  path : ∃ node, prepared.tree.node? 1 = some node ∧ node.bridge = false ∧ node.table = target ∧
    node.path = related.tables
  tables : prepared.statement.tables = related.tables
  clauses : ∀ i < related.joins.length,
    ∃ x y, related.EquatesAt i x y ∧ prepared.statement.EquatesAt i x y

/-- **Related rows and a single join go the same way.** -/
theorem Catalog.sharesRoute_relatedRows (catalog : Catalog) (base child : Join)
    (h : base.JoinsOnly child) (hne : base.table ≠ child.table) (limit : Option Nat) (row : Row) :
    (∀ a b, catalog.relatedRows base.table row child.table = .error (.noPath a b) ↔
      (⟨base, limit⟩ : Query).prepare catalog = .error (.noPath a b)) ∧
    ∀ related prepared, catalog.relatedRows base.table row child.table = .ok related →
      (⟨base, limit⟩ : Query).prepare catalog = .ok prepared →
      prepared.SharesRoute child.table related := by
  refine ⟨fun a b => ?_, fun related prepared hrelated hprepared => ?_⟩
  · rw [relatedRows_eq_noPath_iff, Query.prepare_eq_noPath_iff, Join.normalize_eq_noPath_iff h hne]
  · obtain ⟨path, hpath, hfollows⟩ := follows_of_relatedRows hrelated
    obtain ⟨tree, statement, htree, hstatement, rfl⟩ := Query.prepare_eq_ok_iff.mp hprepared
    obtain ⟨route, placed, authored, bridges, hroute, hbuilt, hpaths⟩ :=
      JoinTree.exists_built_of_joinsOnly h htree
    rw [resolveRoute_eq_pathBeyond hne, hpath] at hroute
    cases hroute
    have hbeyond : path ≠ [] := by
      rintro rfl
      exact hne (Option.some_inj.mp (shortLeg_of_pathBeyond hpath).last)
    have hway := hbuilt.oneWay hbeyond hpaths
    have hfollows' := hway.follows hbuilt hstatement
    refine ⟨?_, hfollows'.tables.trans hfollows.tables.symm, fun i hi => ?_⟩
    · have hjoin : base.preOrder[1]? = some child := by rw [h.preOrder_eq]; rfl
      obtain ⟨node, hnode, hbridge, htable, -⟩ := hbuilt.exists_authored hjoin
      refine ⟨node, hnode, hbridge, htable, ?_⟩
      have hone := hbuilt.pathOf?_one hpaths
      rw [JoinTree.pathOf?, hnode] at hone
      exact (Option.some_inj.mp hone).trans hfollows.tables.symm
    · refine hfollows.equatesAt hfollows' ?_
      rw [← hfollows.tables]
      simpa [Statement.tables] using hi

/-- The parcels of the customer with the number 3, on the one side, and of customers with what was
sent to them, on the other. -/
theorem sharesRoute_parcels :
    ∃ related prepared,
      shop.relatedRows ⟨"shop", "customers"⟩ [("id", .num (.int 3))] ⟨"shop", "parcels"⟩ =
        .ok related ∧
      (parcelsOfSome ["1"]).prepare shop = .ok prepared ∧ related.joins.length = 2 ∧
      prepared.SharesRoute ⟨"shop", "parcels"⟩ related := by
  obtain ⟨related, hrelated, hlength⟩ := map_eq_ok_iff.mp
    (by decide +kernel : (shop.relatedRows ⟨"shop", "customers"⟩ [("id", .num (.int 3))]
      ⟨"shop", "parcels"⟩).map (·.joins.length) = .ok 2)
  obtain ⟨prepared, hprepared⟩ := exists_prepared_parcelsOfSome ["1"]
  have hshares := (shop.sharesRoute_relatedRows (parcelsOfSome ["1"]).base _ ⟨rfl, rfl, rfl⟩
    (by decide) none [("id", .num (.int 3))]).2 related prepared hrelated hprepared
  exact ⟨related, prepared, hrelated, hprepared, hlength, hshares⟩

end JoinPlan
