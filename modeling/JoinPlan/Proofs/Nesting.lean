import JoinPlan.Proofs.Bridges

/-!
# Nesting of authored joins

A join is written under another to have its rows joined to the rows of that one. The canonical tree
goes by paths: a join stands below one with the path of the join it was written under. Two authored
joins can have the same path, though, and the bridges beyond it exist only once; so a join that is
reached over a bridge can end up below the other of the two.

What decides is for whose sake a join got its parent. A parent is looked for among the joins above
the authored one that is being attached, and only then elsewhere.

## Main definitions

* `Join.parentOf?`, `Join.IsBelow`: the join that a join was written under, directly or not.
* `JoinTree.IsChoice`, `JoinTree.Chosen`: parents are those that some authored join beyond asked
  for.
* `JoinTree.KeepsNesting`: how far the canonical tree goes by what was written under what.

## Main results

* `Placement.mem_ancestors_of_isBelow`: the joins above an authored one.
* `JoinTree.Chosen.attachAll`: every parent was chosen for an authored join.
* `Join.keepsNesting_of_normalize`: where nesting is kept.
* `not_isBelow_photosOfParcels`: where it is not.
-/

namespace JoinPlan

/-! ### What was written under what -/

mutual

/-- For each join of a tree in pre-order, the position of the join it was written under. The first
one has the given parent and position. -/
def Join.parentsFrom (parent : Option Nat) (position : Nat) : Join → List (Option Nat)
  | ⟨_, _, _, _, _, joins⟩ => parent :: Join.parentsOfAll (some position) (position + 1) joins

/-- The same for each join of all trees of a list, which were written under the same join. -/
def Join.parentsOfAll (parent : Option Nat) (position : Nat) : List Join → List (Option Nat)
  | [] => []
  | join :: rest =>
    join.parentsFrom parent position ++
      Join.parentsOfAll parent (position + join.preOrder.length) rest

end

/-- The position of the join that the join at a position was written under, if it is not the base.
Positions are those in pre-order. -/
def Join.parentOf? (base : Join) (id : Nat) : Option Nat :=
  (base.parentsFrom none 0)[id]?.join

/-- The first join was written under the second one, directly or not. -/
def Join.IsBelow (base : Join) : Nat → Nat → Prop :=
  Relation.TransGen fun child parent => base.parentOf? child = some parent

variable {P : Type} [Penalty P] {graph : JoinGraph P} {catalog : Catalog} {base : Join}
  {placed : List AuthoredJoin} {entry : AuthoredJoin} {id above : Nat}

theorem head?_ancestors_of_place {parent : Option (Nat × AuthoredJoin)} {join : Join}
    (h : join.place graph parent = .ok entry) : entry.ancestors.head? = parent.map (·.1) := by
  cases parent with
  | none =>
    cases h
    rfl
  | some parent =>
    rw [ancestors_of_place h]
    rfl

mutual

/-- A placed join knows which one it was written under. -/
theorem Join.parentsFrom_of_placedFrom {parent : Option (Nat × AuthoredJoin)} {position : Nat} :
    ∀ {join : Join} {placed : List AuthoredJoin},
      join.placedFrom catalog graph parent position = .ok placed →
      placed.map (·.ancestors.head?) = join.parentsFrom (parent.map (·.1)) position
  | ⟨_, _, _, _, _, joins⟩, placed, h => by
    rw [placedFrom] at h
    obtain ⟨_, -, h⟩ := bind_eq_ok_iff.mp h
    obtain ⟨head, hhead, h⟩ := bind_eq_ok_iff.mp h
    obtain ⟨_, -, h⟩ := bind_eq_ok_iff.mp h
    obtain ⟨below, hbelow, h⟩ := bind_eq_ok_iff.mp h
    cases h
    rw [List.map_cons, head?_ancestors_of_place hhead, parentsFrom,
      Join.parentsOfAll_of_placedAll hbelow]
    rfl

theorem Join.parentsOfAll_of_placedAll {parent : Option (Nat × AuthoredJoin)} {position : Nat} :
    ∀ {joins : List Join} {placed : List AuthoredJoin},
      Join.placedAll catalog graph parent position joins = .ok placed →
      placed.map (·.ancestors.head?) = Join.parentsOfAll (parent.map (·.1)) position joins
  | [], placed, h => by
    rw [placedAll] at h
    cases h
    rw [parentsOfAll, List.map_nil]
  | join :: rest, placed, h => by
    rw [placedAll] at h
    obtain ⟨first, hfirst, h⟩ := bind_eq_ok_iff.mp h
    obtain ⟨others, hothers, h⟩ := bind_eq_ok_iff.mp h
    cases h
    have hlength : first.length = join.preOrder.length := by
      obtain ⟨head, below, rfl, hhead, hbelow⟩ := Join.placedBelow_of_placedFrom hfirst
      have hjoins := congrArg List.length (PlacedBelow.cons hhead hbelow).joins
      rwa [List.length_map, preOrderAll, preOrderAll, List.append_nil] at hjoins
    rw [List.map_append, Join.parentsFrom_of_placedFrom hfirst, parentsOfAll, ← hlength,
      Join.parentsOfAll_of_placedAll hothers]

end

theorem Join.parentOf?_of_placed (h : base.placed catalog graph = .ok placed)
    (hentry : placed[id]? = some entry) : base.parentOf? id = entry.ancestors.head? := by
  have hparents := congrArg (·[id]?) (Join.parentsFrom_of_placedFrom h)
  simp only [List.getElem?_map, hentry, Option.map_some, Option.map_none] at hparents
  rw [Join.parentOf?, ← hparents, Option.join_some]

namespace Placement

/-- The joins above an authored one are its parent and the joins above that, which lies closer to
the base. -/
theorem exists_parent (h : Placement graph base placed) (hentry : placed[id]? = some entry)
    (hparent : entry.ancestors.head? = some above) :
    ∃ up next rest, placed[above]? = some up ∧ entry.ancestors = above :: up.ancestors ∧
      above < id ∧ entry.trail.reverse = up.trail.reverse ++ next :: rest := by
  cases id with
  | zero =>
    rw [h.base] at hentry
    cases hentry
    cases hparent
  | succ i =>
    obtain ⟨k, up, hk, hup, -, hplace⟩ := h.below i entry hentry
    rw [ancestors_of_place hplace] at hparent ⊢
    cases hparent
    obtain ⟨rest, hrest, htrail⟩ := trail_of_place hplace
    obtain ⟨next, rest, rfl⟩ := List.exists_cons_of_ne_nil hrest.ne_nil
    exact ⟨up, next, rest, hup, rfl, Nat.lt_succ_of_le hk, by simp [htrail]⟩

/-- The joins above an authored one lie closer to the base. -/
theorem exists_of_mem_ancestors (h : Placement graph base placed)
    (hentry : placed[id]? = some entry) (hmem : above ∈ entry.ancestors) :
    ∃ up, placed[above]? = some up ∧ up.trail.length < entry.trail.length := by
  induction id using Nat.strongRecOn generalizing entry with
  | ind id ih =>
    obtain ⟨k, others, hsplit⟩ := List.exists_cons_of_ne_nil (List.ne_nil_of_mem hmem)
    obtain ⟨up, next, rest, hup, hancestors, hlt, htrail⟩ :=
      h.exists_parent hentry (by rw [hsplit, List.head?_cons])
    have hshorter := congrArg List.length htrail
    simp only [List.length_reverse, List.length_append, List.length_cons] at hshorter
    rw [hancestors] at hmem
    rcases List.mem_cons.mp hmem with rfl | hmem
    · exact ⟨up, hup, by omega⟩
    · obtain ⟨further, hfurther, hless⟩ := ih k hlt hup hmem
      exact ⟨further, hfurther, by omega⟩

/-- No two joins above an authored one have the same trail. -/
theorem ancestors_unique (h : Placement graph base placed) (hentry : placed[id]? = some entry)
    {a b : Nat} {first second : AuthoredJoin} (ha : a ∈ entry.ancestors) (hb : b ∈ entry.ancestors)
    (hfirst : placed[a]? = some first) (hsecond : placed[b]? = some second)
    (hsame : first.trail = second.trail) : a = b := by
  induction id using Nat.strongRecOn generalizing entry with
  | ind id ih =>
    obtain ⟨k, others, hsplit⟩ := List.exists_cons_of_ne_nil (List.ne_nil_of_mem ha)
    obtain ⟨up, -, -, hup, hancestors, hlt, -⟩ :=
      h.exists_parent hentry (by rw [hsplit, List.head?_cons])
    -- the nearest one is further from the base than all others
    have hnearest : ∀ c ∈ up.ancestors, ∀ other, placed[c]? = some other →
        up.trail ≠ other.trail := by
      intro c hc other hother heq
      obtain ⟨other', hother', hless⟩ := h.exists_of_mem_ancestors hup hc
      cases hother.symm.trans hother'
      exact Nat.ne_of_gt hless (congrArg List.length heq)
    rw [hancestors, List.mem_cons] at ha hb
    rcases ha with rfl | ha <;> rcases hb with rfl | hb
    · rfl
    · cases hup.symm.trans hfirst
      exact absurd hsame (hnearest b hb second hsecond)
    · cases hup.symm.trans hsecond
      exact absurd hsame.symm (hnearest a ha first hfirst)
    · exact ih k hlt hup ha hb

/-- The joins that an authored one was written under are above it. -/
theorem mem_ancestors_of_isBelow (h : Placement graph base placed)
    (hparents : ∀ id entry, placed[id]? = some entry → base.parentOf? id = entry.ancestors.head?)
    (hbelow : base.IsBelow id above) (hentry : placed[id]? = some entry) :
    above ∈ entry.ancestors := by
  induction hbelow using Relation.TransGen.head_induction_on generalizing entry with
  | single hparent =>
    rw [hparents _ entry hentry] at hparent
    exact List.mem_of_mem_head? hparent
  | head hparent _ ih =>
    rw [hparents _ entry hentry] at hparent
    obtain ⟨up, -, -, hup, hancestors, -⟩ := h.exists_parent hentry hparent
    rw [hancestors]
    exact List.mem_cons_of_mem _ (ih hup)

end Placement

/-! ### For whose sake a parent was chosen -/

namespace JoinTree

variable {tree : JoinTree} {authored bridges : List JoinNode} {preferred : List Nat}
  {trail : List TableRef}

/-- If some join above an authored one has the trail asked for, it was chosen. -/
def IsChoice (placed : List AuthoredJoin) (entry : AuthoredJoin) (trail : List TableRef)
    (chosen : Nat) : Prop :=
  ∀ above ∈ entry.ancestors, ∀ up, placed[above]? = some up → up.trail = trail → chosen = above

/-- Every parent was chosen for the sake of an authored join, which is the child itself or has a
bridge as child on its way. -/
def Chosen (placed : List AuthoredJoin) (tree : JoinTree) : Prop :=
  ∀ child parent, tree.parentOf? child = some parent →
    ∃ id entry table behind, placed[id]? = some entry ∧ (child = id ∨ placed.length ≤ child) ∧
      tree.trailOf? child = some (table :: behind) ∧ table :: behind <:+ entry.trail ∧
      IsChoice placed entry behind parent

theorem length_le_length_attachPoint (tree : JoinTree) (preferred : List Nat)
    (trail : List TableRef) :
    tree.nodes.length ≤ (tree.attachPoint preferred trail).1.nodes.length := by
  induction trail with
  | nil => exact Nat.le_refl _
  | cons table behind ih =>
    rw [attachPoint]
    cases tree.pointAt? preferred (table :: behind) with
    | some _ => exact Nat.le_refl _
    | none =>
      dsimp only
      rw [length_adopt, JoinTree.pushBridge, length_push]
      exact Nat.le_succ_of_le ih

theorem isChoice_of_pointAt? (hplaced : Placement graph base placed)
    (htrails : ∀ id < placed.length, tree.trailOf? id = placed[id]?.map (·.trail))
    (hentry : placed[id]? = some entry) {chosen : Nat}
    (h : tree.pointAt? entry.ancestors trail = some chosen) :
    IsChoice placed entry trail chosen := by
  intro above hmem up hup htrail
  have hhas : ∀ {k : Nat} {other : AuthoredJoin}, placed[k]? = some other →
      (tree.hasTrail trail k = true ↔ other.trail = trail) := by
    intro k other hother
    rw [hasTrail_eq_true_iff, htrails k (List.getElem?_eq_some_iff.mp hother).1, hother,
      Option.map_some, Option.some_inj]
  rw [pointAt?] at h
  cases hfind : entry.ancestors.find? (tree.hasTrail trail) with
  | none =>
    have hnone := List.find?_eq_none.mp hfind above hmem
    exact absurd ((hhas hup).mpr htrail) hnone
  | some found =>
    rw [hfind] at h
    cases h
    have hfound := List.mem_of_find?_eq_some hfind
    obtain ⟨other, hother, -⟩ := hplaced.exists_of_mem_ancestors hentry hfound
    have hsame := (hhas hother).mp (List.find?_some hfind)
    exact hplaced.ancestors_unique hentry hfound hmem hother hup (hsame.trans htrail.symm)

/-- Where no join is found the bridge that is built is chosen, for none above has the trail. -/
theorem isChoice_of_pointAt?_eq_none
    (htrails : ∀ id < placed.length, tree.trailOf? id = placed[id]?.map (·.trail))
    (h : tree.pointAt? entry.ancestors trail = none) (chosen : Nat) :
    IsChoice placed entry trail chosen := by
  intro above _ up hup htrail
  have hnode := htrails above (List.getElem?_eq_some_iff.mp hup).1
  rw [hup, Option.map_some, trailOf?_eq_contents, Option.map_eq_some_iff] at hnode
  obtain ⟨node, hnode, hsame⟩ := hnode
  exact absurd (hsame.trans htrail) (trail_ne_of_pointAt? h node (List.mem_of_getElem? hnode))

/-- Bridges that are built for an authored join are chosen for it. -/
theorem Chosen.attachPoint (h : Chosen placed tree) (hplaced : Placement graph base placed)
    (htrails : ∀ id < placed.length, tree.trailOf? id = placed[id]?.map (·.trail))
    (hroom : placed.length ≤ tree.nodes.length) (hentry : placed[id]? = some entry)
    (hway : trail <:+ entry.trail) :
    Chosen placed (tree.attachPoint entry.ancestors trail).1 ∧
      IsChoice placed entry trail (tree.attachPoint entry.ancestors trail).2 := by
  induction trail with
  | nil =>
    refine ⟨h, fun above _ up hup hnil => ?_⟩
    obtain ⟨behind, hbehind⟩ := (hplaced.leadsBack hup).eq_cons
    rw [hbehind] at hnil
    cases hnil
  | cons table behind ih =>
    rw [JoinTree.attachPoint]
    cases hpoint : tree.pointAt? entry.ancestors (table :: behind) with
    | some found => exact ⟨h, isChoice_of_pointAt? hplaced htrails hentry hpoint⟩
    | none =>
      obtain ⟨hbelow, hparent⟩ := ih ((List.suffix_cons table behind).trans hway)
      have hlength := length_le_length_attachPoint tree entry.ancestors behind
      dsimp only
      generalize tree.attachPoint entry.ancestors behind = found at hbelow hparent hlength ⊢
      refine ⟨fun child parent hchild => ?_, isChoice_of_pointAt?_eq_none htrails hpoint _⟩
      rw [parentOf?_adopt (by simp [JoinTree.pushBridge]), JoinTree.pushBridge,
        parentOf?_push rfl] at hchild
      rw [trailOf?_adopt, JoinTree.pushBridge]
      split_ifs at hchild with hnew
      · cases hchild
        refine ⟨id, entry, table, behind, hentry, .inr ?_, ?_, hway, hparent⟩
        · rw [hnew]
          exact hroom.trans hlength
        · rw [trailOf?_push, if_pos hnew]
      · obtain ⟨other, far, first, rest, hfar, hbridge, htrail, hwayFar, hchoice⟩ :=
          hbelow child parent hchild
        exact ⟨other, far, first, rest, hfar, hbridge, trailOf?_push_of_some _ htrail, hwayFar,
          hchoice⟩

theorem Holds.trailOf?_eq_placed (h : Holds authored bridges tree)
    (hstands : List.Forall₂ JoinNode.StandsFor authored placed) (hid : id < placed.length) :
    tree.trailOf? id = placed[id]?.map (·.trail) := by
  rw [h.trailOf?_of_lt (hstands.length_eq.symm ▸ hid), ← List.getElem?_map, trails_eq hstands,
    List.getElem?_map]

/-- An authored join that is attached chooses its parent itself. -/
theorem Chosen.attach (h : Chosen placed tree) (hplaced : Placement graph base placed)
    (hstands : List.Forall₂ JoinNode.StandsFor authored placed)
    (hattached : Attached authored id tree) (hentry : placed[id]? = some entry) :
    Chosen placed (tree.attach id entry) := by
  obtain ⟨bridges, hholds⟩ := hattached.holds
  have hattached' := hattached.attach (rooted_of_placement hplaced hstands) hplaced
    (trails_eq hstands) hentry
  have hlt := (List.getElem?_eq_some_iff.mp hentry).1
  have htrails : ∀ k < placed.length, tree.trailOf? k = placed[k]?.map (·.trail) :=
    fun k hk => hholds.trailOf?_eq_placed hstands hk
  have hroom : placed.length ≤ tree.nodes.length := by
    rw [← length_contents, hholds.contents, List.length_append, hstands.length_eq]
    exact Nat.le_add_right _ _
  obtain ⟨table, hcons⟩ := (hplaced.leadsBack hentry).eq_cons
  obtain ⟨bridges', hholds'⟩ := hattached'.holds
  have htrail := hholds'.trailOf?_eq_placed hstands hlt
  rw [JoinTree.attach] at htrail ⊢
  split_ifs at htrail ⊢ with hbase
  · exact h
  · obtain ⟨hbelow, hparent⟩ := h.attachPoint hplaced htrails hroom hentry
      (List.drop_suffix 1 entry.trail)
    have hlength := length_le_length_attachPoint tree entry.ancestors (entry.trail.drop 1)
    dsimp only at htrail ⊢
    generalize tree.attachPoint entry.ancestors (entry.trail.drop 1) = found
      at hbelow hparent hlength htrail ⊢
    rw [trailOf?_adopt, hentry, Option.map_some] at htrail
    intro child parent hchild
    rw [parentOf?_adopt (hlt.trans_le (hroom.trans hlength))] at hchild
    rw [trailOf?_adopt]
    split_ifs at hchild with hself
    · cases hchild
      refine ⟨id, entry, _, table, hentry, .inl hself, ?_, ⟨[], hcons.symm⟩, ?_⟩
      · rw [hself, htrail, hcons]
      · rwa [hcons, List.drop_one, List.tail_cons] at hparent
    · exact hbelow child parent hchild

theorem Chosen.unattached {selects : List (List String)}
    (hlength : placed.length = selects.length) : Chosen placed (unattached placed selects) := by
  have hside := sideBySide_unattached hlength
  intro child parent hchild
  obtain ⟨node, hnode, -⟩ := Option.bind_eq_some_iff.mp hchild
  have hloose := (hside.loose child).mpr (List.getElem?_eq_some_iff.mp hnode).1
  rw [hloose.2] at hchild
  cases hchild

/-- **Every parent was chosen for an authored join.** -/
theorem Chosen.attachAll (hplaced : Placement graph base placed)
    (hstands : List.Forall₂ JoinNode.StandsFor authored placed) {front rest : List AuthoredJoin}
    (hfront : front ++ rest = placed) (hattached : Attached authored front.length tree)
    (h : Chosen placed tree) : Chosen placed (tree.attachAll front.length rest) := by
  induction rest generalizing front tree with
  | nil => exact h
  | cons entry rest ih =>
    have hentry : placed[front.length]? = some entry := by
      rw [← hfront, List.getElem?_append_right (Nat.le_refl _), Nat.sub_self,
        List.getElem?_cons_zero]
    have hnext := hattached.attach (rooted_of_placement hplaced hstands) hplaced
      (trails_eq hstands) hentry
    rw [JoinTree.attachAll]
    have hfront' : (front ++ [entry]) ++ rest = placed := by simpa using hfront
    simpa using ih hfront' (by simpa using hnext) (h.attach hplaced hstands hattached hentry)

theorem chosen_ofPlaced {selects : List (List String)} (hplaced : Placement graph base placed)
    (hlength : placed.length = selects.length) : Chosen placed (ofPlaced placed selects) :=
  Chosen.attachAll hplaced (sideBySide_unattached hlength).standsFor (List.nil_append placed)
    (attached_unattached hplaced hlength) (.unattached hlength)

/-! ### What is kept -/

/-- How far the canonical tree of an authored one goes by what was written under what. Every join
but the base stands below an authored one with the path of the join it was written under. That is
the very join it was written under if

* it lies one table beyond that join, or
* no other authored join has the path of that join, or
* all authored joins whose paths go on from there to the same table were written under it. -/
def KeepsNesting (base : Join) (tree : JoinTree) : Prop :=
  ∀ id, 0 < id → id < base.preOrder.length → ∃ above path next rest,
    base.parentOf? id = some above ∧ tree.pathOf? above = some path ∧
    tree.pathOf? id = some (path ++ next :: rest) ∧
    (∃ other, other < base.preOrder.length ∧ tree.pathOf? other = some path ∧
      tree.IsBelow id other) ∧
    ((rest = [] ∨
        (∀ other, other < base.preOrder.length → tree.pathOf? other = some path → other = above) ∨
        ∀ other far, other < base.preOrder.length → tree.pathOf? other = some far →
          path ++ [next] <+: far → base.IsBelow other above) →
      tree.IsBelow id above)

/-- If all authored joins on whose way a join lies stand below the same one, just before it, then
that one was chosen for its parent. -/
theorem Chosen.parent_eq (h : Chosen placed tree) {child parent : Nat} {next : TableRef}
    {up : AuthoredJoin} (hparent : tree.parentOf? child = some parent)
    (hchild : tree.trailOf? child = some (next :: up.trail)) (hup : placed[above]? = some up)
    (hasked : ∀ id entry, placed[id]? = some entry → (child = id ∨ placed.length ≤ child) →
      next :: up.trail <:+ entry.trail → above ∈ entry.ancestors) : parent = above := by
  obtain ⟨id, entry, table, behind, hentry, hself, htrail, hway, hchoice⟩ := h child parent hparent
  rw [hchild] at htrail
  cases htrail
  exact hchoice above (hasked id entry hentry hself hway) up hup rfl

namespace Built

theorem length_placed (h : Built graph base placed authored bridges tree) :
    placed.length = base.preOrder.length := by
  rw [← h.placement.joins, List.length_map]

theorem trailOf?_eq_placed (h : Built graph base placed authored bridges tree)
    (hentry : placed[id]? = some entry) : tree.trailOf? id = some entry.trail := by
  have hlt := (List.getElem?_eq_some_iff.mp hentry).1
  rw [h.holds.trailOf?_eq_placed h.standsFor hlt, hentry, Option.map_some]

theorem pathOf?_eq_placed (h : Built graph base placed authored bridges tree)
    (hentry : placed[id]? = some entry) : tree.pathOf? id = some entry.trail.reverse := by
  rw [pathOf?_eq_some_iff, h.trailOf?_eq_placed hentry, List.reverse_reverse]

/-- Going from parent to parent, a join is left for an authored one with the path of a join that it
was written under. -/
theorem exists_reached (h : Built graph base placed authored bridges tree) {up : AuthoredJoin}
    (hup : placed[above]? = some up) {next : TableRef} {front : List TableRef}
    (hid : tree.trailOf? id = some (front ++ next :: up.trail)) :
    ∃ child parent, tree.IsWithin id child ∧ tree.parentOf? child = some parent ∧
      tree.trailOf? child = some (next :: up.trail) ∧ tree.trailOf? parent = some up.trail ∧
      parent < placed.length := by
  have hne : up.trail ≠ [] := by
    obtain ⟨behind, hbehind⟩ := (h.placement.leadsBack hup).eq_cons
    rw [hbehind]
    exact List.cons_ne_nil _ _
  obtain ⟨child, parent, hwithin, hparent, hchild, hreached⟩ :=
    h.exists_child hid ⟨front, rfl⟩ hne
  refine ⟨child, parent, hwithin, hparent, hchild, hreached, Nat.lt_of_not_le fun hle => ?_⟩
  -- a bridge has the path of no authored join
  have hlt := (List.getElem?_eq_some_iff.mp hup).1
  have heq := h.bridge_unique (h.standsFor.length_eq.symm ▸ hle) hreached
    (h.trailOf?_eq_placed hup)
  omega

/-- A join stands below the one it was written under if it lies one table beyond that. -/
theorem parentOf?_eq (h : Built graph base placed authored bridges tree)
    (hchosen : Chosen placed tree) (hentry : placed[id]? = some entry) (hid : id ≠ 0)
    {up : AuthoredJoin} (hup : placed[above]? = some up) (hmem : above ∈ entry.ancestors)
    {next : TableRef} (htrail : entry.trail = next :: up.trail) :
    tree.parentOf? id = some above := by
  have hself := h.trailOf?_eq_placed hentry
  have hlt := (List.getElem?_eq_some_iff.mp hentry).1
  obtain ⟨parent, _, _, hparent, -, -⟩ := h.exists_parent hid hself
  have heq := hchosen.parent_eq hparent (htrail ▸ hself) hup fun k far hfar hk _ => by
    rcases hk with rfl | hbridge
    · rw [hentry] at hfar
      cases hfar
      exact hmem
    · omega
  rw [hparent, heq]

end Built

end JoinTree

/-- **Where nesting is kept**, whatever the catalog and the graph. -/
theorem Join.keepsNesting_of_normalize (catalog : Catalog) (graph : JoinGraph P) (base : Join)
    (tree : JoinTree) (h : base.normalize catalog graph = .ok tree) : tree.KeepsNesting base := by
  obtain ⟨_, placed, selects, -, hplaced, hselects, rfl⟩ := JoinTree.normalize_eq_ok_iff.mp h
  have hplacement := Join.placement_of_placed hplaced
  have hlength := (mapM_eq_ok_iff.mp hselects).length_eq
  have hchosen := JoinTree.chosen_ofPlaced hplacement hlength
  obtain ⟨bridges, hbuilt⟩ := JoinTree.built_ofPlaced hplacement hlength
  generalize JoinTree.ofPlaced placed selects = tree at hchosen hbuilt
  have hparents : ∀ id entry, placed[id]? = some entry →
      base.parentOf? id = entry.ancestors.head? := fun _ _ => Join.parentOf?_of_placed hplaced
  intro id hpos hid
  rw [← hbuilt.length_placed] at hid ⊢
  have hentry := List.getElem?_eq_getElem hid
  generalize placed[id] = entry at hentry
  obtain ⟨i, rfl⟩ := Nat.exists_eq_succ_of_ne_zero (Nat.ne_of_gt hpos)
  obtain ⟨above, others, hsplit⟩ :=
    List.exists_cons_of_ne_nil (hplacement.ancestors_ne_nil hentry)
  have hhead : entry.ancestors.head? = some above := by rw [hsplit, List.head?_cons]
  obtain ⟨up, next, rest, hup, -, -, hpath⟩ := hplacement.exists_parent hentry hhead
  have htrail : entry.trail = rest.reverse ++ next :: up.trail := by
    simpa using congrArg List.reverse hpath
  have hself := hbuilt.trailOf?_eq_placed hentry
  obtain ⟨child, parent, hwithin, hparent, hchild, hreached, hlt⟩ :=
    hbuilt.exists_reached hup (htrail ▸ hself)
  have hbelow : tree.IsBelow (i + 1) parent := .tail' hwithin hparent
  have hreached : tree.pathOf? parent = some up.trail.reverse := by
    rw [JoinTree.pathOf?_eq_some_iff, hreached, List.reverse_reverse]
  refine ⟨above, up.trail.reverse, next, rest, (hparents _ _ hentry).trans hhead,
    hbuilt.pathOf?_eq_placed hup, hpath ▸ hbuilt.pathOf?_eq_placed hentry,
    ⟨parent, hlt, hreached, hbelow⟩, ?_⟩
  rintro (rfl | hunique | honly)
  · have hmem := List.mem_of_mem_head? hhead
    exact .single
      (hbuilt.parentOf?_eq hchosen hentry (Nat.succ_ne_zero i) hup hmem (by simpa using htrail))
  · exact hunique parent hlt hreached ▸ hbelow
  · have heq := hchosen.parent_eq hparent hchild hup fun k far hfar _ hway => by
      have hwritten := honly k far.trail.reverse (List.getElem?_eq_some_iff.mp hfar).1
        (hbuilt.pathOf?_eq_placed hfar)
        (by rwa [← List.reverse_suffix, List.reverse_reverse, List.reverse_append,
          List.reverse_reverse, List.reverse_singleton, List.singleton_append])
      exact hplacement.mem_ancestors_of_isBelow hparents hwritten hfar
    exact heq ▸ hbelow

/-! ### What is not kept -/

/-- The columns of a shop whose parcels are scanned and photographed on their way. -/
def trackedColumns : List ListedColumn :=
  shopColumns ++ [⟨⟨"shop", "parcels"⟩, "id", "integer", .number, false, true⟩,
    ⟨⟨"shop", "scans"⟩, "id", "integer", .number, false, true⟩,
    ⟨⟨"shop", "scans"⟩, "parcel", "integer", .number, false, false⟩,
    ⟨⟨"shop", "photos"⟩, "scan", "integer", .number, false, false⟩]

/-- Photos belong to scans, and scans to parcels. -/
def trackedKeys : List Relationship :=
  shopKeys ++ [⟨⟨"shop", "scans"⟩, "parcel", ⟨"shop", "parcels"⟩, "id"⟩,
    ⟨⟨"shop", "photos"⟩, "scan", ⟨"shop", "scans"⟩, "id"⟩]

/-- Parcels of a number, with their photos. -/
def photosOfParcel (number : String) : Join :=
  ⟨⟨"shop", "parcels"⟩, [], .columns [], some (.comparison "id" .equal number), [],
    [⟨⟨"shop", "photos"⟩, [], .columns [], none, [], []⟩]⟩

/-- Customers with the photos of two parcels, one written under their orders, where it lies, and one
next to these. -/
def photosOfParcels : Join :=
  ⟨⟨"shop", "customers"⟩, [], .all, none, [],
    [⟨⟨"shop", "orders"⟩, [], .columns [], none, [], [photosOfParcel "1"]⟩, photosOfParcel "2"]⟩

/-- The graph of that shop, in which no path is preferred for names. -/
def trackedGraph : JoinGraph Nat :=
  .ofCatalog (fun _ _ => 0) (.assemble trackedColumns trackedKeys) []

theorem keepsNesting_photosOfParcels :
    ∃ tree, photosOfParcels.normalize (.assemble trackedColumns trackedKeys) trackedGraph =
      .ok tree ∧ tree.KeepsNesting photosOfParcels := by
  have hlength : (photosOfParcels.normalize (.assemble trackedColumns trackedKeys)
      trackedGraph).map (·.nodes.length) = .ok 7 := by
    decide +kernel
  obtain ⟨tree, htree, -⟩ := map_eq_ok_iff.mp hlength
  exact ⟨tree, htree, Join.keepsNesting_of_normalize _ _ _ _ htree⟩

/-- **Nesting is not always kept.** The photos of the second parcel are written under it, but they
share the path of those of the first one, and stand below that. -/
theorem not_isBelow_photosOfParcels :
    ∃ tree, photosOfParcels.normalize (.assemble trackedColumns trackedKeys) trackedGraph =
        .ok tree ∧
      photosOfParcels.parentOf? 5 = some 4 ∧ ¬ tree.IsBelow 5 4 := by
  have hparents : (photosOfParcels.normalize (.assemble trackedColumns trackedKeys)
      trackedGraph).map (fun tree => tree.nodes.map (·.parent)) =
        .ok [none, some 0, some 1, some 6, some 1, some 6, some 2] := by
    decide +kernel
  obtain ⟨tree, htree, hparents⟩ := map_eq_ok_iff.mp hparents
  refine ⟨tree, htree, by decide +kernel, fun hbelow => ?_⟩
  -- no join at all stands right below the second parcel
  obtain ⟨child, -, hchild⟩ := Relation.TransGen.tail'_iff.mp hbelow
  obtain ⟨node, hnode, hparent⟩ := Option.bind_eq_some_iff.mp hchild
  have hmem : some 4 ∈ tree.nodes.map (·.parent) :=
    List.mem_map.mpr ⟨node, List.mem_of_getElem? hnode, hparent⟩
  rw [hparents] at hmem
  exact absurd hmem (by decide)

end JoinPlan
