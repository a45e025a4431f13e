import JoinPlan.Proofs.Bridges
import JoinPlan.Proofs.ReorderedJoins

/-!
# The order of siblings does not matter

Which bridge is built first, which alias a join gets and where it stands in the list all depend on
the order in which children are written. What joins there are does not: authored joins have the same
places, and bridges carry those paths that the authored joins leave open, however these came up. So
the canonical trees of joins that only differ in the order of children have the same joins up to
order.

Whether there is a statement can be told from the joins one by one, if what a join asks of its
parent is read off its path. And where no two authored joins share a path, no two joins do, so that
paths alone say which join of one tree is which of the other.

## Main definitions

* `JoinNode.unnamed`: a join without its alias and its position.
* `JoinTree.SameJoins`: two trees have the same joins up to order.
* `JoinTree.MatchedByPath`: paths pair the joins of two trees, and their parents too.

## Main results

* `Join.Reordered.sameJoins`: the canonical trees of reordered joins have the same joins.
* `JoinTree.Built.exists_statement_iff`: which canonical trees have a statement, join by join.
* `JoinTree.SameJoins.matchedByPath`: where paths differ, they pair the joins.
* `Query.prepare_of_reordered`: reordered queries compile or fail together, to the same joins.
-/

namespace JoinPlan

variable {P : Type} [Penalty P] {catalog : Catalog} {graph : JoinGraph P} {a b : Join}

/-! ### Canonical trees -/

/-- The join without its alias and its position. What is left is its table, its selection, its
condition, its waypoints, its sort terms and its path, and whether it is a bridge. -/
def JoinNode.unnamed (node : JoinNode) : JoinNode :=
  { node with joinAlias := "", parent := none, children := [] }

/-- Two trees have the same joins up to order. -/
def JoinTree.SameJoins (tree tree' : JoinTree) : Prop :=
  (tree.nodes.map JoinNode.unnamed).Perm (tree'.nodes.map JoinNode.unnamed)

/-- The join of a canonical tree that stands for one with a given place. -/
def JoinNode.ofPlace (catalog : Catalog) (place : Join × Except QueryError (List TableRef)) :
    Except QueryError JoinNode := do
  let trail ← place.2
  let select ← place.1.checkedSelect catalog
  return {
    table := place.1.table
    joinAlias := ""
    select
    condition := place.1.condition
    via := place.1.via
    orderBy := place.1.orderBy
    trail
    bridge := false
    parent := none
    children := [] }

/-- A place says all there is to say about an authored join. -/
theorem JoinNode.Realizes.ofPlace_eq {node : JoinNode} {entry : AuthoredJoin}
    (h : node.Realizes catalog entry) : ofPlace catalog entry.view = .ok node.unnamed := by
  have hchecked : entry.join.alone.checkedSelect catalog = .ok node.select := h.select
  rw [ofPlace, AuthoredJoin.view, ok_bind_eq, hchecked, ok_bind_eq, unnamed, h.table, h.condition,
    h.via, h.orderBy, h.trail, h.bridge]
  rfl

/-- A path says all there is to say about a bridge. -/
theorem JoinNode.IsBridge.unnamed_eq {node other : JoinNode} (h : node.IsBridge)
    (hother : other.IsBridge) (htrail : node.trail = other.trail) :
    node.unnamed = other.unnamed := by
  have htable : node.table = other.table := by
    rw [← Option.some_inj, ← h.head, htrail, hother.head]
  rw [unnamed, unnamed, htable, htrail, h.bridge, h.select, h.condition, h.via, h.orderBy,
    hother.bridge, hother.select, hother.condition, hother.via, hother.orderBy]

/-- Bridges with the same trails are the same bridges. -/
theorem JoinNode.IsBridge.mem_map_unnamed {bridges bridges' : List JoinNode}
    (h : ∀ node ∈ bridges, node.IsBridge) (h' : ∀ node ∈ bridges', node.IsBridge)
    (htrails : ∀ trail, trail ∈ bridges.map (·.trail) → trail ∈ bridges'.map (·.trail)) :
    ∀ node, node ∈ bridges.map unnamed → node ∈ bridges'.map unnamed := by
  intro _ hmem
  obtain ⟨node, hnode, rfl⟩ := List.mem_map.mp hmem
  obtain ⟨other, hother, htrail⟩ := List.mem_map.mp (htrails _ (List.mem_map_of_mem hnode))
  exact List.mem_map.mpr ⟨other, hother, (h' other hother).unnamed_eq (h node hnode) htrail⟩

namespace JoinTree

variable {base base' : Join} {tree tree' : JoinTree} {placed placed' : List AuthoredJoin}
  {authored authored' bridges bridges' : List JoinNode}

namespace Built

theorem map_unnamed_nodes (h : Built graph base placed authored bridges tree) :
    tree.nodes.map JoinNode.unnamed =
      authored.map JoinNode.unnamed ++ bridges.map JoinNode.unnamed := by
  rw [← List.map_append, ← h.holds.contents, contents, List.map_map]
  rfl

theorem mem_trails_bridges_iff (h : Built graph base placed authored bridges tree)
    {trail : List TableRef} : trail ∈ bridges.map (·.trail) ↔
      trail ≠ [] ∧ (∃ far ∈ authored.map (·.trail), trail <:+ far ∧ trail ≠ far) ∧
        trail ∉ authored.map (·.trail) := by
  have hids : (∃ id, authored.length ≤ id ∧ tree.trailOf? id = some trail) ↔
      trail ∈ bridges.map (·.trail) := by
    rw [List.mem_iff_getElem?]
    constructor
    · rintro ⟨id, hid, htrail⟩
      exact ⟨id - authored.length, h.trailOf?_of_le hid ▸ htrail⟩
    · rintro ⟨i, hi⟩
      refine ⟨authored.length + i, Nat.le_add_right _ _, ?_⟩
      rw [h.trailOf?_of_le (Nat.le_add_right _ _), Nat.add_sub_cancel_left, hi]
  rw [← hids, h.trailOf?_bridge_iff]
  simp only [List.mem_map, exists_exists_and_eq_and, not_exists, not_and]

/-- **Trees with the same authored joins have the same bridges**, in whatever order they were
built. -/
theorem perm_bridges (h : Built graph base placed authored bridges tree)
    (h' : Built graph base' placed' authored' bridges' tree')
    (hperm : (authored.map JoinNode.unnamed).Perm (authored'.map JoinNode.unnamed)) :
    (bridges.map JoinNode.unnamed).Perm (bridges'.map JoinNode.unnamed) := by
  have hauthored := hperm.map JoinNode.trail
  rw [List.map_map, List.map_map] at hauthored
  -- which trails bridges have only depends on the set of trails of authored joins
  have htrails : ∀ trail, trail ∈ bridges.map (·.trail) ↔ trail ∈ bridges'.map (·.trail) := by
    intro trail
    have hmem : trail ∈ authored.map (·.trail) ↔ trail ∈ authored'.map (·.trail) :=
      hauthored.mem_iff
    have hway : (∃ far ∈ authored.map (·.trail), trail <:+ far ∧ trail ≠ far) ↔
        ∃ far ∈ authored'.map (·.trail), trail <:+ far ∧ trail ≠ far :=
      exists_congr fun far => and_congr_left fun _ => hauthored.mem_iff
    rw [h.mem_trails_bridges_iff, h'.mem_trails_bridges_iff, hway, hmem]
  -- and none of them comes up twice
  have hnodup : ∀ {bridges : List JoinNode}, (bridges.map (·.trail)).Nodup →
      (bridges.map JoinNode.unnamed).Nodup := by
    intro bridges hnodup
    refine List.Nodup.of_map JoinNode.trail ?_
    rwa [List.map_map]
  rw [List.perm_ext_iff_of_nodup (hnodup h.holds.nodup) (hnodup h'.holds.nodup)]
  intro node
  constructor
  · exact JoinNode.IsBridge.mem_map_unnamed h.holds.isBridge h'.holds.isBridge
      (fun trail => (htrails trail).mp) node
  · exact JoinNode.IsBridge.mem_map_unnamed h'.holds.isBridge h.holds.isBridge
      (fun trail => (htrails trail).mpr) node

end Built

end JoinTree

/-- **The canonical trees of reordered joins have the same joins.** -/
theorem Join.Reordered.sameJoins (h : a.Reordered b) {treeA treeB : JoinTree}
    (ha : a.normalize catalog graph = .ok treeA) (hb : b.normalize catalog graph = .ok treeB) :
    treeA.SameJoins treeB := by
  obtain ⟨placed, authored, bridges, hplaced, hbuilt, hreal⟩ := JoinTree.realizes_of_normalize ha
  obtain ⟨placed', authored', bridges', hplaced', hbuilt', hreal'⟩ :=
    JoinTree.realizes_of_normalize hb
  have hplaces : ∀ {placed : List AuthoredJoin} {authored : List JoinNode},
      List.Forall₂ (JoinNode.Realizes catalog) authored placed →
      (authored.map JoinNode.unnamed).map Except.ok =
        (placed.map AuthoredJoin.view).map (JoinNode.ofPlace catalog) := by
    intro placed authored hreal
    rw [List.map_map, List.map_map]
    exact map_eq_map_of_forall₂ hreal fun _ _ hstands => hstands.ofPlace_eq.symm
  have hauthored : (authored.map JoinNode.unnamed).Perm (authored'.map JoinNode.unnamed) := by
    have hperm := (h.perm_placed hplaced hplaced').map (JoinNode.ofPlace catalog)
    rw [← hplaces hreal, ← hplaces hreal'] at hperm
    exact (List.map_perm_map_iff fun _ _ => Except.ok.inj).mp hperm
  rw [JoinTree.SameJoins, hbuilt.map_unnamed_nodes, hbuilt'.map_unnamed_nodes]
  exact hauthored.append (hbuilt.perm_bridges hbuilt' hauthored)

/-! ### Statements -/

/-- What a join asks of the catalog by itself: its table has the columns that its rows are tested or
sorted by, and can be joined to the table before it on its path. -/
structure JoinNode.Fits (catalog : Catalog) (node : JoinNode) : Prop where
  rowColumns : node.HasRowColumns catalog
  joinable : ∀ table above behind, node.trail = table :: above :: behind →
    catalog.Joinable above table

namespace JoinTree

variable {base base' : Join} {tree tree' : JoinTree} {placed placed' : List AuthoredJoin}
  {authored authored' bridges bridges' : List JoinNode} {node below : JoinNode}

namespace Built

/-- The path of a join goes on from the table that it stands below. -/
theorem trail_of_mem_joinsBelow (h : Built graph base placed authored bridges tree)
    (hnode : node ∈ tree.nodes) (hbelow : below ∈ tree.joinsBelow node) :
    below ∈ tree.nodes ∧ ∃ behind, below.trail = below.table :: node.table :: behind := by
  obtain ⟨id, hid⟩ := List.getElem?_of_mem hnode
  obtain ⟨child, hchild, hsome⟩ := List.mem_filterMap.mp hbelow
  have htrail := (h.beyond_of_mem_children hid hchild hsome).1
  obtain ⟨behind, hbehind⟩ := (h.leadsBack hid).eq_cons
  exact ⟨List.mem_of_getElem? hsome, behind, hbehind ▸ htrail⟩

/-- A join stands below one of the table before it on its path. -/
theorem exists_mem_joinsBelow (h : Built graph base placed authored bridges tree)
    (hnode : node ∈ tree.nodes) {table above : TableRef} {behind : List TableRef}
    (htrail : node.trail = table :: above :: behind) :
    ∃ parent ∈ tree.nodes, node ∈ tree.joinsBelow parent ∧ parent.table = above ∧
      node.table = table := by
  obtain ⟨id, hid⟩ := List.getElem?_of_mem hnode
  have hne : id ≠ 0 := by
    rintro rfl
    have hbase := h.trailOf?_zero
    rw [trailOf?_eq hid, htrail] at hbase
    cases hbase
  obtain ⟨number, parent, hparent, hsome, hsplit, -⟩ := h.exists_above hne hid
  obtain ⟨further, hfurther⟩ := (h.leadsBack hsome).eq_cons
  rw [htrail, hfurther] at hsplit
  cases hsplit
  refine ⟨parent, List.mem_of_getElem? hsome, ?_, rfl, rfl⟩
  exact List.mem_filterMap.mpr ⟨id, (h.linked.mem_children_iff hsome).mpr hparent, hid⟩

theorem forall_fits_iff (h : Built graph base placed authored bridges tree) :
    (∀ node ∈ tree.nodes, node.Fits catalog) ↔
      ∀ node ∈ tree.nodes, node.HasRowColumns catalog ∧
        ∀ below ∈ tree.joinsBelow node, catalog.Joinable node.table below.table := by
  constructor
  · intro hfits node hnode
    refine ⟨(hfits node hnode).rowColumns, fun below hbelow => ?_⟩
    obtain ⟨hmem, behind, htrail⟩ := h.trail_of_mem_joinsBelow hnode hbelow
    exact (hfits below hmem).joinable _ _ behind htrail
  · intro hjoins node hnode
    refine ⟨(hjoins node hnode).1, fun table above behind htrail => ?_⟩
    obtain ⟨parent, hparent, hbelow, rfl, rfl⟩ := h.exists_mem_joinsBelow hnode htrail
    exact (hjoins parent hparent).2 node hbelow

/-- **Which canonical trees have a statement**, join by join. -/
theorem exists_statement_iff (h : Built graph base placed authored bridges tree) :
    (∃ statement, tree.statement catalog = .ok statement) ↔
      (∀ node ∈ tree.nodes, node.Fits catalog) ∧ (∃ node ∈ tree.nodes, node.Outputs catalog) ∧
        DefinitelyOrdered ((tree.nodes.flatMap (·.orderBy)).map (·.priority)) := by
  have hroot := ((h.loose root).mpr rfl).1
  rw [JoinTree.exists_statement_iff (perm_joinsInOrder h.linked h.loose) (by simpa [node?]),
    h.forall_fits_iff]

end Built

namespace SameJoins

theorem symm (h : tree.SameJoins tree') : tree'.SameJoins tree :=
  List.Perm.symm h

theorem forall_mem_nodes (h : tree.SameJoins tree') {p : JoinNode → Prop}
    (hp : ∀ node : JoinNode, p node.unnamed ↔ p node) (hall : ∀ node ∈ tree.nodes, p node) :
    ∀ node ∈ tree'.nodes, p node := by
  have hunnamed : ∀ node ∈ tree.nodes.map JoinNode.unnamed, p node := by
    rw [List.forall_mem_map]
    exact fun node hnode => (hp node).mpr (hall node hnode)
  intro node hnode
  exact (hp node).mp (hunnamed _ (h.mem_iff.mpr (List.mem_map_of_mem hnode)))

theorem exists_mem_nodes (h : tree.SameJoins tree') {p : JoinNode → Prop}
    (hp : ∀ node : JoinNode, p node.unnamed ↔ p node) (hsome : ∃ node ∈ tree.nodes, p node) :
    ∃ node ∈ tree'.nodes, p node := by
  by_contra hnone
  push Not at hnone
  obtain ⟨node, hnode, hholds⟩ := hsome
  exact h.symm.forall_mem_nodes (fun node => not_congr (hp node)) hnone node hnode hholds

theorem exists_statement (hsame : tree.SameJoins tree')
    (h : Built graph base placed authored bridges tree)
    (h' : Built graph base' placed' authored' bridges' tree')
    (hstatement : ∃ statement, tree.statement catalog = .ok statement) :
    ∃ statement, tree'.statement catalog = .ok statement := by
  obtain ⟨hfits, houtputs, hordered⟩ := h.exists_statement_iff.mp hstatement
  have hterms := (hsame.flatMap_right (·.orderBy)).map (·.priority)
  rw [List.flatMap_map, List.flatMap_map] at hterms
  refine h'.exists_statement_iff.mpr ⟨?_, ?_, hordered.perm hterms⟩
  · exact hsame.forall_mem_nodes (fun node => ⟨fun h => ⟨h.1, h.2⟩, fun h => ⟨h.1, h.2⟩⟩) hfits
  · exact hsame.exists_mem_nodes (fun _ => Iff.rfl) houtputs

end SameJoins

/-! ### Matching joins by their paths -/

/-- The paths of the authored joins. -/
def authoredPaths (tree : JoinTree) : List (List TableRef) :=
  (tree.nodes.filter (!·.bridge)).map JoinNode.path

/-- A join of one tree has the path of a join of another. -/
def SamePath (tree tree' : JoinTree) (id other : Nat) : Prop :=
  ∃ path, tree.pathOf? id = some path ∧ tree'.pathOf? other = some path

/-- Paths pair the joins of two trees, each with just one of the other tree, and so that parents are
paired as well. -/
structure MatchedByPath (tree tree' : JoinTree) : Prop where
  right : ∀ id < tree.nodes.length, ∃! other, tree.SamePath tree' id other
  left : ∀ other < tree'.nodes.length, ∃! id, tree.SamePath tree' id other
  parents : ∀ id other, tree.SamePath tree' id other →
    Option.Rel (tree.SamePath tree') (tree.parentOf? id) (tree'.parentOf? other)

theorem pathOf?_eq_getElem? (tree : JoinTree) (id : Nat) :
    tree.pathOf? id = (tree.nodes.map JoinNode.path)[id]? := by
  rw [List.getElem?_map]
  rfl

theorem pathOf?_inj (hnodup : (tree.nodes.map JoinNode.path).Nodup) {a b : Nat}
    {path : List TableRef} (ha : tree.pathOf? a = some path) (hb : tree.pathOf? b = some path) :
    a = b := by
  rw [pathOf?_eq_getElem?] at ha hb
  exact (List.getElem?_inj (List.getElem?_eq_some_iff.mp ha).1 hnodup).mp (ha.trans hb.symm)

theorem samePath_comm {id other : Nat} :
    tree.SamePath tree' id other ↔ tree'.SamePath tree other id :=
  exists_congr fun _ => and_comm

/-- Each join of one tree has the path of just one join of the other, if the trees have the same
paths up to order and all of them differ. -/
theorem existsUnique_samePath
    (hpaths : (tree.nodes.map JoinNode.path).Perm (tree'.nodes.map JoinNode.path))
    (hnodup : (tree.nodes.map JoinNode.path).Nodup) {id : Nat} (hid : id < tree.nodes.length) :
    ∃! other, tree.SamePath tree' id other := by
  have hpath : tree.pathOf? id = some tree.nodes[id].path := by
    rw [pathOf?, node?, List.getElem?_eq_getElem hid, Option.map_some]
  obtain ⟨other, hother⟩ := List.mem_iff_getElem?.mp
    (hpaths.mem_iff.mp (List.mem_map_of_mem (List.getElem_mem hid)))
  simp only [SamePath, hpath, Option.some_inj, exists_eq_left', pathOf?_eq_getElem?]
  refine ⟨other, hother, fun beside hbeside => ?_⟩
  have hlt := (List.getElem?_eq_some_iff.mp hbeside).1
  exact (List.getElem?_inj hlt (hpaths.nodup_iff.mp hnodup)).mp (hbeside.trans hother.symm)

namespace Built

theorem authoredPaths_eq (h : Built graph base placed authored bridges tree) :
    tree.authoredPaths = authored.map JoinNode.path := by
  have hcontents : tree.authoredPaths = (tree.contents.filter (!·.bridge)).map JoinNode.path := by
    rw [contents, List.filter_map, List.map_map]
    rfl
  have hauthored : authored.filter (!·.bridge) = authored := by
    refine List.filter_eq_self.mpr fun node hnode => ?_
    obtain ⟨i, hi⟩ := List.getElem?_of_mem hnode
    obtain ⟨_, -, hstands⟩ := getElem?_of_forall₂ h.standsFor hi
    rw [hstands.bridge]
    rfl
  have hbridges : bridges.filter (!·.bridge) = [] := by
    refine List.filter_eq_nil_iff.mpr fun node hnode => ?_
    simp [(h.holds.isBridge node hnode).bridge]
  rw [hcontents, h.holds.contents, List.filter_append, hauthored, hbridges, List.append_nil]

/-- **If no two authored joins have the same path, no two joins do.** -/
theorem nodup_paths (h : Built graph base placed authored bridges tree)
    (hnodup : tree.authoredPaths.Nodup) : (tree.nodes.map JoinNode.path).Nodup := by
  have hpaths : tree.nodes.map JoinNode.path =
      authored.map JoinNode.path ++ bridges.map JoinNode.path := by
    rw [← List.map_append, ← h.holds.contents, contents, List.map_map]
    rfl
  have hbridges : (bridges.map JoinNode.path).Nodup := by
    have hreversed := h.holds.nodup.map List.reverse_injective
    rwa [List.map_map] at hreversed
  have hauthored : (authored.map JoinNode.path).Nodup := h.authoredPaths_eq ▸ hnodup
  rw [hpaths, List.nodup_append]
  refine ⟨hauthored, hbridges, ?_⟩
  rintro _ hpath _ hother rfl
  obtain ⟨node, hnode, rfl⟩ := List.mem_map.mp hpath
  obtain ⟨bridge, hbridge, hsame⟩ := List.mem_map.mp hother
  exact h.holds.fresh bridge hbridge node hnode (List.reverse_injective hsame)

/-- The parent of a join has the rest of its trail. Where nothing is left there is no parent. -/
theorem parentOf?_cases (h : Built graph base placed authored bridges tree) {id : Nat}
    {trail : List TableRef} (htrail : tree.trailOf? id = some trail) :
    (trail.tail = [] ∧ tree.parentOf? id = none) ∨
      trail.tail ≠ [] ∧ ∃ parent, tree.parentOf? id = some parent ∧
        tree.trailOf? parent = some trail.tail := by
  by_cases hid : id = 0
  · subst hid
    rw [h.trailOf?_zero, Option.some_inj] at htrail
    subst htrail
    exact .inl ⟨rfl, ((h.loose 0).mpr rfl).2⟩
  · obtain ⟨parent, table, behind, hparent, rfl, habove⟩ := h.exists_parent hid htrail
    refine .inr ⟨?_, parent, hparent, habove⟩
    obtain ⟨node, hnode, rfl⟩ := Option.map_eq_some_iff.mp habove
    obtain ⟨_, hcons⟩ := (h.leadsBack hnode).eq_cons
    rw [List.tail_cons, hcons]
    exact List.cons_ne_nil _ _

end Built

/-- **Where paths differ, they pair the joins of trees with the same joins.** -/
theorem SameJoins.matchedByPath (hsame : tree.SameJoins tree')
    (h : Built graph base placed authored bridges tree)
    (h' : Built graph base' placed' authored' bridges' tree') (hnodup : tree.authoredPaths.Nodup) :
    tree.MatchedByPath tree' := by
  have hnodes := h.nodup_paths hnodup
  have hpaths : (tree.nodes.map JoinNode.path).Perm (tree'.nodes.map JoinNode.path) := by
    have hperm := hsame.map JoinNode.path
    rwa [List.map_map, List.map_map] at hperm
  refine ⟨fun id hid => existsUnique_samePath hpaths hnodes hid, fun other hother => ?_, ?_⟩
  · exact (existsUnique_congr fun _ => samePath_comm).mp
      (existsUnique_samePath hpaths.symm (hpaths.nodup_iff.mp hnodes) hother)
  · rintro id other ⟨path, hid, hother⟩
    rw [pathOf?_eq_some_iff] at hid hother
    -- whether there is a parent, and what its path is, can be told from the path alone
    rcases h.parentOf?_cases hid with ⟨hnil, hnone⟩ | ⟨hne, parent, hparent, habove⟩
    · rcases h'.parentOf?_cases hother with ⟨-, hnone'⟩ | ⟨hne, -⟩
      · rw [hnone, hnone']
        exact .none
      · exact absurd hnil hne
    · rcases h'.parentOf?_cases hother with ⟨hnil, -⟩ | ⟨-, parent', hparent', habove'⟩
      · exact absurd hnil hne
      · rw [hparent, hparent']
        refine .some ⟨path.reverse.tail.reverse, ?_, ?_⟩
        · rw [pathOf?_eq_some_iff, List.reverse_reverse, habove]
        · rw [pathOf?_eq_some_iff, List.reverse_reverse, habove']

end JoinTree

/-! ### Queries -/

theorem Query.exists_prepare_of_reordered {a b : Query} (h : a.base.Reordered b.base)
    (hprepared : ∃ p, a.prepare catalog = .ok p) : ∃ q, b.prepare catalog = .ok q := by
  obtain ⟨_, hp⟩ := hprepared
  obtain ⟨tree, statement, htree, hstatement, -⟩ := prepare_eq_ok_iff.mp hp
  obtain ⟨tree', htree'⟩ := h.exists_normalize_iff.mp ⟨tree, htree⟩
  obtain ⟨_, _, _, hbuilt⟩ := JoinTree.built_of_normalize htree
  obtain ⟨_, _, _, hbuilt'⟩ := JoinTree.built_of_normalize htree'
  obtain ⟨statement', hstatement'⟩ :=
    (h.sameJoins htree htree').exists_statement hbuilt hbuilt' ⟨statement, hstatement⟩
  exact ⟨_, prepare_eq_ok_iff.mpr ⟨tree', statement', htree', hstatement', rfl⟩⟩

/-- **The order of siblings does not matter.** Reordered queries compile or fail together, and their
canonical trees have the same joins. If no two authored joins have the same path, joins with the
same path have parents with the same path. -/
theorem Query.prepare_of_reordered (catalog : Catalog) (a b : Query)
    (h : a.base.Reordered b.base) :
    ((∃ p, a.prepare catalog = .ok p) ↔ ∃ q, b.prepare catalog = .ok q) ∧
    ∀ p q, a.prepare catalog = .ok p → b.prepare catalog = .ok q →
      p.tree.SameJoins q.tree ∧ (p.tree.authoredPaths.Nodup → p.tree.MatchedByPath q.tree) := by
  refine ⟨⟨exists_prepare_of_reordered h, exists_prepare_of_reordered h.symm⟩, ?_⟩
  intro p q hp hq
  obtain ⟨tree, _, htree, -, rfl⟩ := prepare_eq_ok_iff.mp hp
  obtain ⟨tree', _, htree', -, rfl⟩ := prepare_eq_ok_iff.mp hq
  obtain ⟨_, _, _, hbuilt⟩ := JoinTree.built_of_normalize htree
  obtain ⟨_, _, _, hbuilt'⟩ := JoinTree.built_of_normalize htree'
  have hsame := h.sameJoins htree htree'
  exact ⟨hsame, hsame.matchedByPath hbuilt hbuilt'⟩

/-- Customers with other tables. -/
def customersWith (tables : List String) : Query :=
  ⟨⟨⟨"shop", "customers"⟩, [], .all, none, [],
    tables.map fun table => ⟨⟨"shop", table⟩, [], .all, none, [], []⟩⟩, none⟩

theorem reordered_customersWith :
    (customersWith ["orders", "parcels"]).base.Reordered
      (customersWith ["parcels", "orders"]).base :=
  have halone : ∀ table : String,
      Join.Reordered ⟨⟨"shop", table⟩, [], .all, none, [], []⟩
        ⟨⟨"shop", table⟩, [], .all, none, [], []⟩ :=
    fun _ => .intro rfl .nil .nil
  .intro rfl (.cons (halone "orders") (.cons (halone "parcels") .nil)) (.swap _ _ _)

/-- Parcels are attached to the orders beside them, whichever come first. -/
theorem prepare_customersWith :
    (customersWith ["orders", "parcels"]).base.Reordered
        (customersWith ["parcels", "orders"]).base ∧
      ∃ p q, (customersWith ["orders", "parcels"]).prepare shop = .ok p ∧
        (customersWith ["parcels", "orders"]).prepare shop = .ok q ∧ p.tree ≠ q.tree ∧
        p.tree.authoredPaths.Nodup ∧ p.tree.SameJoins q.tree ∧ p.tree.MatchedByPath q.tree := by
  have hpaths : ((customersWith ["orders", "parcels"]).prepare shop).map (·.tree.authoredPaths) =
      .ok [[⟨"shop", "customers"⟩], [⟨"shop", "customers"⟩, ⟨"shop", "orders"⟩],
        [⟨"shop", "customers"⟩, ⟨"shop", "orders"⟩, ⟨"shop", "parcels"⟩]] := by
    decide +kernel
  have hpaths' : ((customersWith ["parcels", "orders"]).prepare shop).map (·.tree.authoredPaths) =
      .ok [[⟨"shop", "customers"⟩],
        [⟨"shop", "customers"⟩, ⟨"shop", "orders"⟩, ⟨"shop", "parcels"⟩],
        [⟨"shop", "customers"⟩, ⟨"shop", "orders"⟩]] := by
    decide +kernel
  obtain ⟨p, hp, hpaths⟩ := map_eq_ok_iff.mp hpaths
  obtain ⟨q, hq, hpaths'⟩ := map_eq_ok_iff.mp hpaths'
  have hnodup : p.tree.authoredPaths.Nodup := by
    rw [hpaths]
    decide
  obtain ⟨hsame, hmatched⟩ :=
    (Query.prepare_of_reordered shop _ _ reordered_customersWith).2 p q hp hq
  refine ⟨reordered_customersWith, p, q, hp, hq, ?_, hnodup, hsame, hmatched hnodup⟩
  intro heq
  rw [← heq, hpaths] at hpaths'
  revert hpaths'
  decide

end JoinPlan
