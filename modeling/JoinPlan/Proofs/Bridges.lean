import JoinPlan.Proofs.CanonicalTree

/-!
# The bridges of a canonical tree

The authored joins stand first in a canonical tree, as they were written. Bridges carry just those
paths on the way to authored joins that no authored join has, each of them once. So a bridge never
stands where an authored join could, and it always carries something further.

That no path is missing follows by going from parent to parent: every suffix of a trail is the trail
of a join.

## Main definitions

* `JoinTree.pathOf?`: the path of the join at a position.
* `JoinTree.Bridged`: bridges are where they must be, and nowhere else.

## Main results

* `JoinTree.Built.exists_child`: every step on the way to a join is itself a join and its parent.
* `JoinTree.Built.trailOf?_bridge_iff`: which trails bridges have.
* `Join.bridged_of_normalize`: a canonical tree has the bridges that it needs and no other.
-/

namespace JoinPlan

/-- A proper suffix goes on by at least one more element. -/
theorem exists_cons_suffix {α : Type} {short long : List α} (h : short <:+ long)
    (hne : short ≠ long) : ∃ first, first :: short <:+ long := by
  obtain ⟨front, rfl⟩ := h
  rcases List.eq_nil_or_concat front with rfl | ⟨init, first, rfl⟩
  · exact absurd rfl hne
  · exact ⟨first, init, by simp⟩

namespace JoinTree

variable {P : Type} [Penalty P] {graph : JoinGraph P} {base : Join} {tree : JoinTree}
  {placed : List AuthoredJoin} {authored bridges : List JoinNode} {id : Nat} {node : JoinNode}
  {trail : List TableRef}

namespace Built

/-! ### Going from parent to parent -/

/-- **Every step on the way to a join is itself a join and its parent.** -/
theorem exists_child (h : Built graph base placed authored bridges tree) {trail : List TableRef}
    (htrail : tree.trailOf? id = some trail) {table : TableRef} {behind : List TableRef}
    (hsuffix : table :: behind <:+ trail) (hne : behind ≠ []) :
    ∃ child parent, tree.IsWithin id child ∧ tree.parentOf? child = some parent ∧
      tree.trailOf? child = some (table :: behind) ∧ tree.trailOf? parent = some behind := by
  induction trail generalizing id with
  | nil => cases List.suffix_nil.mp hsuffix
  | cons first rest ih =>
    have hid : id ≠ 0 := by
      rintro rfl
      rw [h.trailOf?_zero] at htrail
      cases htrail
      have hlength := hsuffix.length_le
      have hpos := List.length_pos_iff.mpr hne
      simp only [List.length_cons, List.length_nil] at hlength
      omega
    obtain ⟨parent, _, _, hparent, hsplit, habove⟩ := h.exists_parent hid htrail
    cases hsplit
    rcases List.suffix_cons_iff.mp hsuffix with heq | hlow
    · cases heq
      exact ⟨id, parent, .refl, hparent, htrail, habove⟩
    · obtain ⟨child, other, hwithin, hrest⟩ := ih habove hlow
      exact ⟨child, other, hwithin.head hparent, hrest⟩

/-! ### The trails of bridges -/

theorem length_authored (h : Built graph base placed authored bridges tree) :
    authored.length = base.preOrder.length := by
  rw [h.standsFor.length_eq, ← h.placement.joins, List.length_map]

theorem trailOf?_authored_iff (h : Built graph base placed authored bridges tree) :
    (∃ id, id < authored.length ∧ tree.trailOf? id = some trail) ↔
      ∃ far ∈ authored, far.trail = trail := by
  constructor
  · rintro ⟨id, hid, htrail⟩
    rw [h.holds.trailOf?_of_lt hid] at htrail
    obtain ⟨far, hfar, htrail⟩ := Option.map_eq_some_iff.mp htrail
    exact ⟨far, List.mem_of_getElem? hfar, htrail⟩
  · rintro ⟨far, hfar, rfl⟩
    obtain ⟨id, hid⟩ := List.getElem?_of_mem hfar
    have hlt := (List.getElem?_eq_some_iff.mp hid).1
    exact ⟨id, hlt, by rw [h.holds.trailOf?_of_lt hlt, hid, Option.map_some]⟩

theorem mem_bridges (h : Built graph base placed authored bridges tree)
    (hid : authored.length ≤ id) (hnode : tree.node? id = some node) : node.unlinked ∈ bridges := by
  have hmem := h.getElem?_contents hnode
  rw [List.getElem?_append_right hid] at hmem
  exact List.mem_of_getElem? hmem

theorem trailOf?_of_le (h : Built graph base placed authored bridges tree)
    (hid : authored.length ≤ id) :
    tree.trailOf? id = (bridges.map (·.trail))[id - authored.length]? := by
  rw [trailOf?_eq_contents, h.holds.contents, List.getElem?_append_right hid, List.getElem?_map]

/-- **Bridges have the trails that lead to authored joins and belong to none.** -/
theorem trailOf?_bridge_iff (h : Built graph base placed authored bridges tree) :
    (∃ id, authored.length ≤ id ∧ tree.trailOf? id = some trail) ↔
      trail ≠ [] ∧ (∃ far ∈ authored, trail <:+ far.trail ∧ trail ≠ far.trail) ∧
        ∀ other ∈ authored, other.trail ≠ trail := by
  constructor
  · rintro ⟨id, hid, htrail⟩
    obtain ⟨node, hnode, rfl⟩ := Option.map_eq_some_iff.mp htrail
    have hmem := h.mem_bridges hid hnode
    obtain ⟨far, hfar, hsuffix⟩ := h.holds.onWay _ hmem
    refine ⟨?_, ⟨far, hfar, hsuffix, h.holds.fresh _ hmem far hfar⟩, ?_⟩
    · obtain ⟨behind, hbehind⟩ := (h.leadsBack hnode).eq_cons
      rw [hbehind]
      exact List.cons_ne_nil _ _
    · intro other hother hsame
      exact h.holds.fresh _ hmem other hother hsame.symm
  · rintro ⟨hne, ⟨far, hfar, hsuffix, hproper⟩, hnew⟩
    obtain ⟨first, hsuffix⟩ := exists_cons_suffix hsuffix hproper
    obtain ⟨id, -, htrail⟩ := h.trailOf?_authored_iff.mpr ⟨far, hfar, rfl⟩
    obtain ⟨-, parent, -, -, -, hparent⟩ := h.exists_child htrail hsuffix hne
    refine ⟨parent, Nat.le_of_not_lt fun hlt => ?_, hparent⟩
    obtain ⟨other, hother, hsame⟩ := h.trailOf?_authored_iff.mp ⟨parent, hlt, hparent⟩
    exact hnew other hother hsame

/-- No other join has the trail of a bridge. -/
theorem bridge_unique (h : Built graph base placed authored bridges tree)
    (hid : authored.length ≤ id) (htrail : tree.trailOf? id = some trail) {other : Nat}
    (hother : tree.trailOf? other = some trail) : other = id := by
  have hnew := (h.trailOf?_bridge_iff.mp ⟨id, hid, htrail⟩).2.2
  have hle : authored.length ≤ other := by
    refine Nat.le_of_not_lt fun hlt => ?_
    obtain ⟨far, hfar, hsame⟩ := h.trailOf?_authored_iff.mp ⟨other, hlt, hother⟩
    exact hnew far hfar hsame
  rw [h.trailOf?_of_le hid] at htrail
  rw [h.trailOf?_of_le hle, ← htrail] at hother
  have hlt : other - authored.length < (bridges.map (·.trail)).length := by
    rw [htrail] at hother
    exact (List.getElem?_eq_some_iff.mp hother).1
  have heq := (List.getElem?_inj hlt h.holds.nodup).mp hother
  omega

/-- A bridge carries something further. -/
theorem exists_parentOf?_bridge (h : Built graph base placed authored bridges tree)
    (hid : authored.length ≤ id) (htrail : tree.trailOf? id = some trail) :
    ∃ child, tree.parentOf? child = some id := by
  obtain ⟨hne, ⟨far, hfar, hsuffix, hproper⟩, -⟩ := h.trailOf?_bridge_iff.mp ⟨id, hid, htrail⟩
  obtain ⟨first, hsuffix⟩ := exists_cons_suffix hsuffix hproper
  obtain ⟨last, -, hlast⟩ := h.trailOf?_authored_iff.mpr ⟨far, hfar, rfl⟩
  obtain ⟨child, parent, -, hparent, -, habove⟩ := h.exists_child hlast hsuffix hne
  exact ⟨child, h.bridge_unique hid htrail habove ▸ hparent⟩

end Built

/-! ### Bridged trees -/

/-- The path of the join at a position. -/
def pathOf? (tree : JoinTree) (id : Nat) : Option (List TableRef) :=
  (tree.node? id).map JoinNode.path

theorem pathOf?_eq_some_iff {path : List TableRef} :
    tree.pathOf? id = some path ↔ tree.trailOf? id = some path.reverse := by
  rw [pathOf?, trailOf?]
  cases tree.node? id with
  | none => simp
  | some node => simp [JoinNode.path, List.reverse_eq_iff]

/-- The canonical tree of an authored one has its joins, and then the bridges that they need. -/
structure Bridged (base : Join) (tree : JoinTree) : Prop where
  /-- The authored joins stand first, in pre-order, as they were written. -/
  authored : ∀ id join, base.preOrder[id]? = some join →
    ∃ node, tree.node? id = some node ∧ node.bridge = false ∧ node.table = join.table ∧
      node.via = join.via ∧ node.condition = join.condition ∧ node.orderBy = join.orderBy
  /-- Every other join is a bridge. It selects, tests and sorts nothing. -/
  bridge : ∀ id node, base.preOrder.length ≤ id → tree.node? id = some node →
    node.bridge = true ∧ node.select = [] ∧ node.via = [] ∧ node.condition = none ∧
      node.orderBy = []
  /-- Bridges have the paths that lead to authored joins and belong to none. -/
  paths : ∀ path, (∃ id, base.preOrder.length ≤ id ∧ tree.pathOf? id = some path) ↔
    path ≠ [] ∧
      (∃ id far, id < base.preOrder.length ∧ tree.pathOf? id = some far ∧ path <+: far ∧
        path ≠ far) ∧
      ∀ id, id < base.preOrder.length → tree.pathOf? id ≠ some path
  /-- No other join has the path of a bridge. -/
  unique : ∀ id other path, base.preOrder.length ≤ id → tree.pathOf? id = some path →
    tree.pathOf? other = some path → other = id
  /-- No bridge is a leaf. -/
  inner : ∀ id node, base.preOrder.length ≤ id → tree.node? id = some node → node.children ≠ []

namespace Built

theorem exists_authored (h : Built graph base placed authored bridges tree) {join : Join}
    (hjoin : base.preOrder[id]? = some join) :
    ∃ node, tree.node? id = some node ∧ node.bridge = false ∧ node.table = join.table ∧
      node.via = join.via ∧ node.condition = join.condition ∧ node.orderBy = join.orderBy := by
  rw [← h.placement.joins, List.getElem?_map] at hjoin
  obtain ⟨entry, hentry, rfl⟩ := Option.map_eq_some_iff.mp hjoin
  have hlt : id < authored.length :=
    h.standsFor.length_eq ▸ (List.getElem?_eq_some_iff.mp hentry).1
  obtain ⟨entry', hentry', hstands⟩ :=
    getElem?_of_forall₂ h.standsFor (List.getElem?_eq_getElem hlt)
  cases hentry.symm.trans hentry'
  have hcontents := JoinTree.getElem?_contents tree id
  rw [h.holds.contents, List.getElem?_append_left hlt, List.getElem?_eq_getElem hlt] at hcontents
  obtain ⟨node, hnode, hsame⟩ := Option.map_eq_some_iff.mp hcontents.symm
  rw [← hsame] at hstands
  exact ⟨node, hnode, hstands.bridge, hstands.table, hstands.via, hstands.condition,
    hstands.orderBy⟩

theorem pathOf?_bridge_iff (h : Built graph base placed authored bridges tree)
    {path : List TableRef} :
    (∃ id, authored.length ≤ id ∧ tree.pathOf? id = some path) ↔
      path ≠ [] ∧
        (∃ id far, id < authored.length ∧ tree.pathOf? id = some far ∧ path <+: far ∧ path ≠ far) ∧
        ∀ id, id < authored.length → tree.pathOf? id ≠ some path := by
  simp only [pathOf?_eq_some_iff, h.trailOf?_bridge_iff]
  refine and_congr (not_congr List.reverse_eq_nil_iff) (and_congr ?_ ?_)
  · constructor
    · rintro ⟨far, hfar, hsuffix, hne⟩
      obtain ⟨id, hid, htrail⟩ := h.trailOf?_authored_iff.mpr ⟨far, hfar, rfl⟩
      refine ⟨id, far.trail.reverse, hid, ?_, ?_, ?_⟩
      · rw [htrail, List.reverse_reverse]
      · rwa [← List.reverse_suffix, List.reverse_reverse]
      · rintro rfl
        exact hne (List.reverse_reverse _)
    · rintro ⟨id, far, hid, htrail, hsuffix, hne⟩
      obtain ⟨node, hnode, hsame⟩ := h.trailOf?_authored_iff.mp ⟨id, hid, htrail⟩
      refine ⟨node, hnode, ?_, ?_⟩
      · rwa [hsame, List.reverse_suffix]
      · rw [hsame]
        exact fun heq => hne (List.reverse_inj.mp heq)
  · constructor
    · intro hnew id hid hpath
      obtain ⟨far, hfar, hsame⟩ :=
        h.trailOf?_authored_iff.mp ⟨id, hid, pathOf?_eq_some_iff.mp hpath⟩
      exact hnew far hfar hsame
    · intro hnew far hfar hsame
      obtain ⟨id, hid, htrail⟩ := h.trailOf?_authored_iff.mpr ⟨far, hfar, hsame⟩
      exact hnew id hid (pathOf?_eq_some_iff.mpr htrail)

end Built

end JoinTree

variable {P : Type} [Penalty P]

/-- **A canonical tree has the bridges that it needs and no other**, whatever the graph. -/
theorem Join.bridged_of_normalize (catalog : Catalog) (graph : JoinGraph P) (base : Join)
    (tree : JoinTree) (h : base.normalize catalog graph = .ok tree) : tree.Bridged base := by
  obtain ⟨placed, authored, bridges, hbuilt⟩ := JoinTree.built_of_normalize h
  refine ⟨fun id join hjoin => hbuilt.exists_authored hjoin, ?_, ?_, ?_, ?_⟩ <;>
    rw [← hbuilt.length_authored]
  · intro id node hid hnode
    have hbridge := hbuilt.holds.isBridge _ (hbuilt.mem_bridges hid hnode)
    exact ⟨hbridge.bridge, hbridge.select, hbridge.via, hbridge.condition, hbridge.orderBy⟩
  · exact fun path => hbuilt.pathOf?_bridge_iff
  · intro id other path hid hpath hother
    rw [JoinTree.pathOf?_eq_some_iff] at hpath hother
    exact hbuilt.bridge_unique hid hpath hother
  · intro id node hid hnode
    obtain ⟨child, hchild⟩ := hbuilt.exists_parentOf?_bridge hid (JoinTree.trailOf?_eq hnode)
    exact List.ne_nil_of_mem ((hbuilt.linked.mem_children_iff hnode).mpr hchild)

theorem bridged_parcelsOfCustomers :
    ∃ tree, parcelsOfCustomers.normalize shop (JoinGraph.ofCatalog (fun _ _ => (0 : Nat)) shop []) =
        .ok tree ∧
      tree.nodes.length = 3 ∧ tree.Bridged parcelsOfCustomers := by
  have hthree : (parcelsOfCustomers.normalize shop
      (JoinGraph.ofCatalog (fun _ _ => (0 : Nat)) shop [])).map (·.nodes.length) = .ok 3 := by
    decide +kernel
  obtain ⟨tree, htree, hlength⟩ := map_eq_ok_iff.mp hthree
  exact ⟨tree, htree, hlength, Join.bridged_of_normalize _ _ _ _ htree⟩

end JoinPlan
