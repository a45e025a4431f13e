import JoinPlan.Proofs.Placement
import JoinPlan.Proofs.TreeLinks
import JoinPlan.Tree.Normal
import Mathlib.Data.List.Nodup

/-!
# Attaching authored joins

A tree under construction holds the authored joins first and then the bridges that were needed so
far. `Holds` says what bridges there can be: each lies on the way to some authored join, and no
other join has its trail, neither an authored one nor another bridge. It is kept because a bridge
is built only where no join has the trail that is asked for, and below a bridge with the rest of
that trail, which is shorter.

## Main definitions

* `JoinNode.IsBridge`, `JoinNode.StandsFor`: a join that only carries a path, and one that an author
  wrote.
* `JoinTree.Holds`: the authored joins and then the bridges.
* `JoinTree.Rooted`: the authored joins all lead back to the base, which is one of them.
* `JoinTree.SideBySide`, `JoinTree.Attached`: a tree before joins are attached, and one in which
  those before a position are.

## Main results

* `JoinTree.attachPoint_spec`: where a join is attached there is one with the trail asked for, and
  nothing but bridges was added on the way.
* `JoinTree.Attached.attach`, `JoinTree.Attached.attachAll`: after all joins are attached only the
  base is loose.
-/

namespace JoinPlan

/-- The join only carries a path: it selects, tests and sorts nothing. -/
structure JoinNode.IsBridge (node : JoinNode) : Prop where
  bridge : node.bridge = true
  select : node.select = []
  condition : node.condition = none
  via : node.via = []
  orderBy : node.orderBy = []
  head : node.trail.head? = some node.table

/-- The join is an authored one, as it was written. -/
structure JoinNode.StandsFor (node : JoinNode) (entry : AuthoredJoin) : Prop where
  bridge : node.bridge = false
  table : node.table = entry.join.table
  condition : node.condition = entry.join.condition
  via : node.via = entry.join.via
  orderBy : node.orderBy = entry.join.orderBy
  trail : node.trail = entry.trail

namespace JoinTree

variable {tree : JoinTree} {authored bridges : List JoinNode} {base table : TableRef}
  {trail behind : List TableRef} {preferred : List Nat} {id : Nat}

/-- The authored joins stand first, then the bridges. -/
structure Holds (authored bridges : List JoinNode) (tree : JoinTree) : Prop where
  contents : tree.contents = authored ++ bridges
  isBridge : ∀ node ∈ bridges, node.IsBridge
  /-- A bridge lies on the way to an authored join. -/
  onWay : ∀ node ∈ bridges, ∃ far ∈ authored, node.trail <:+ far.trail
  /-- No authored join has the trail of a bridge. -/
  fresh : ∀ node ∈ bridges, ∀ other ∈ authored, node.trail ≠ other.trail
  /-- No two bridges have the same trail. -/
  nodup : (bridges.map (·.trail)).Nodup

/-- The joins lead back to a base, which is one of them. -/
structure Rooted (base : TableRef) (authored : List JoinNode) : Prop where
  root : ∃ node ∈ authored, node.trail = [base]
  last : ∀ node ∈ authored, node.trail.getLast? = some base

/-! ### Finding a join with a trail -/

theorem hasTrail_eq_true_iff : tree.hasTrail trail id = true ↔ tree.trailOf? id = some trail := by
  rw [hasTrail, trailOf?]
  cases tree.node? id <;> simp

theorem trailOf?_of_pointAt? (h : tree.pointAt? preferred trail = some id) :
    tree.trailOf? id = some trail := by
  rw [pointAt?] at h
  split at h
  · rename_i found hfound
    cases h
    exact hasTrail_eq_true_iff.mp (List.find?_some hfound)
  · obtain ⟨hlt, htrail, -⟩ := List.findIdx?_eq_some_iff_getElem.mp h
    rw [trailOf?, node?, List.getElem?_eq_getElem hlt, Option.map_some]
    simpa using htrail

/-- Where no join is found none has the trail. -/
theorem trail_ne_of_pointAt? (h : tree.pointAt? preferred trail = none) :
    ∀ node ∈ tree.contents, node.trail ≠ trail := by
  rw [pointAt?] at h
  split at h
  · cases h
  · intro _ hmem
    obtain ⟨node, hnode, rfl⟩ := List.mem_map.mp hmem
    have hne := List.findIdx?_eq_none_iff.mp h node hnode
    exact of_decide_eq_false hne

/-! ### Building bridges -/

/-- The bridge to a table, before it has a place. -/
def bridgeTo (tree : JoinTree) (table : TableRef) (behind : List TableRef) : JoinNode :=
  { table
    joinAlias := tree.aliasFor table
    select := []
    condition := none
    via := []
    orderBy := []
    trail := table :: behind
    bridge := true
    parent := none
    children := [] }

theorem isBridge_bridgeTo (tree : JoinTree) (table : TableRef) (behind : List TableRef) :
    (tree.bridgeTo table behind).IsBridge :=
  ⟨rfl, rfl, rfl, rfl, rfl, rfl⟩

theorem Holds.pushBridge (h : Holds authored bridges tree)
    (hway : ∃ far ∈ authored, table :: behind <:+ far.trail)
    (hnew : ∀ node ∈ authored ++ bridges, node.trail ≠ table :: behind) (parent : Nat) :
    Holds authored (bridges ++ [tree.bridgeTo table behind])
      ((tree.pushBridge table behind).adopt parent tree.nodes.length) where
  contents := by
    rw [contents_adopt, JoinTree.pushBridge, contents_push, h.contents, List.append_assoc]
    rfl
  isBridge := List.forall_mem_append.mpr
    ⟨h.isBridge, List.forall_mem_singleton.mpr (isBridge_bridgeTo tree table behind)⟩
  onWay := List.forall_mem_append.mpr ⟨h.onWay, List.forall_mem_singleton.mpr hway⟩
  fresh := by
    refine List.forall_mem_append.mpr ⟨h.fresh, List.forall_mem_singleton.mpr ?_⟩
    intro other hother
    exact (hnew other (List.mem_append_left _ hother)).symm
  nodup := by
    rw [List.map_append, List.nodup_append]
    refine ⟨h.nodup, List.nodup_singleton _, ?_⟩
    rintro _ hx _ hy rfl
    obtain ⟨node, hnode, hsame⟩ := List.mem_map.mp hx
    rw [List.map_singleton, List.mem_singleton] at hy
    exact hnew node (List.mem_append_right _ hnode) (hsame.trans hy)

/-- A bridge gets its place below the join with the rest of its trail. -/
theorem Linked.pushBridge (h : tree.Linked) {parent : Nat}
    (hparent : tree.trailOf? parent = some behind) :
    ((tree.pushBridge table behind).adopt parent tree.nodes.length).Linked := by
  have hpush : (tree.pushBridge table behind).Linked := h.push rfl
  have hloose : (tree.pushBridge table behind).IsLoose tree.nodes.length :=
    (isLoose_push_iff rfl).mpr (.inr rfl)
  have hchild : (tree.pushBridge table behind).trailOf? tree.nodes.length =
      some (table :: behind) := by
    rw [JoinTree.pushBridge, trailOf?_push, if_pos rfl]
  exact hpush.adopt hloose hchild (trailOf?_push_of_some _ hparent)

theorem isLoose_pushBridge_iff {parent : Nat} :
    ((tree.pushBridge table behind).adopt parent tree.nodes.length).IsLoose id ↔
      tree.IsLoose id := by
  rw [isLoose_adopt_iff (by simp [JoinTree.pushBridge]), JoinTree.pushBridge, isLoose_push_iff rfl]
  constructor
  · rintro ⟨hloose | hlast, hne⟩
    · exact hloose
    · exact absurd hlast hne
  · intro hloose
    exact ⟨.inl hloose, Nat.ne_of_lt hloose.1⟩

variable (preferred) in
/-- **Finding the join to attach to.** There is one with the trail asked for. Bridges may have been
built for it, all along that trail; nothing else has changed. -/
theorem attachPoint_spec (hroot : Rooted base authored) (hne : trail ≠ [])
    (hway : ∃ far ∈ authored, trail <:+ far.trail) (hh : Holds authored bridges tree)
    (hl : tree.Linked) :
    ∃ more, Holds authored (bridges ++ more) (tree.attachPoint preferred trail).1 ∧
      (∀ node ∈ more, node.trail <:+ trail) ∧
      (tree.attachPoint preferred trail).1.Linked ∧
      (∀ id, (tree.attachPoint preferred trail).1.IsLoose id ↔ tree.IsLoose id) ∧
      (tree.attachPoint preferred trail).1.trailOf? (tree.attachPoint preferred trail).2 =
        some trail := by
  induction trail with
  | nil => exact absurd rfl hne
  | cons table behind ih =>
    rw [attachPoint]
    cases hpoint : tree.pointAt? preferred (table :: behind) with
    | some id =>
      exact ⟨[], by rwa [List.append_nil], by simp, hl, fun _ => Iff.rfl,
        trailOf?_of_pointAt? hpoint⟩
    | none =>
      have hnew := trail_ne_of_pointAt? hpoint
      rw [hh.contents] at hnew
      obtain ⟨far, hfar, hsuffix⟩ := hway
      -- the base is always found
      have hbehind : behind ≠ [] := by
        rintro rfl
        obtain ⟨node, hnode, htrail⟩ := hroot.root
        obtain ⟨front, hfront⟩ := hsuffix
        have hlast := hroot.last far hfar
        rw [← hfront, List.getLast?_concat] at hlast
        cases hlast
        exact hnew node (List.mem_append_left _ hnode) htrail
      obtain ⟨more, hh', hmore, hl', hloose, hpoint'⟩ :=
        ih hbehind ⟨far, hfar, (List.suffix_cons table behind).trans hsuffix⟩
      dsimp only
      generalize tree.attachPoint preferred behind = found at hh' hl' hloose hpoint' ⊢
      -- the bridges below have shorter trails
      have hnew' : ∀ node ∈ authored ++ (bridges ++ more), node.trail ≠ table :: behind := by
        intro node hnode
        rw [← List.append_assoc] at hnode
        rcases List.mem_append.mp hnode with hold | hlow
        · exact hnew node hold
        · intro htrail
          have hlen := (hmore node hlow).length_le
          rw [htrail, List.length_cons] at hlen
          omega
      refine ⟨more ++ [found.1.bridgeTo table behind], ?_, ?_, hl'.pushBridge hpoint',
        fun id => isLoose_pushBridge_iff.trans (hloose id), ?_⟩
      · rw [← List.append_assoc]
        exact hh'.pushBridge ⟨far, hfar, hsuffix⟩ hnew' _
      · refine List.forall_mem_append.mpr ⟨?_, List.forall_mem_singleton.mpr List.suffix_rfl⟩
        exact fun node hlow => (hmore node hlow).trans (List.suffix_cons table behind)
      · rw [trailOf?_adopt, JoinTree.pushBridge, trailOf?_push, if_pos rfl]

/-! ### Before any join is attached -/

/-- The joins of a list stand side by side. -/
structure SideBySide (placed : List AuthoredJoin) (tree : JoinTree) : Prop where
  standsFor : List.Forall₂ JoinNode.StandsFor tree.contents placed
  linked : tree.Linked
  loose : ∀ id, tree.IsLoose id ↔ id < tree.nodes.length

theorem SideBySide.nil : SideBySide [] ⟨[]⟩ where
  standsFor := List.Forall₂.nil
  linked := by
    constructor <;> simp [childrenOf, parentOf?, node?]
  loose := by
    simp [IsLoose]

theorem SideBySide.pushAuthored {placed : List AuthoredJoin} (h : SideBySide placed tree)
    (entry : AuthoredJoin) (select : List String) :
    SideBySide (placed ++ [entry]) (tree.pushAuthored entry select) where
  standsFor := by
    rw [JoinTree.pushAuthored, contents_push]
    exact List.rel_append h.standsFor (.cons ⟨rfl, rfl, rfl, rfl, rfl, rfl⟩ .nil)
  linked := h.linked.push rfl
  loose := by
    intro id
    rw [JoinTree.pushAuthored, isLoose_push_iff rfl, h.loose, length_push, Nat.lt_succ_iff_lt_or_eq]

theorem sideBySide_unattached {placed : List AuthoredJoin} {selects : List (List String)}
    (h : placed.length = selects.length) : SideBySide placed (unattached placed selects) := by
  have hall : ∀ (entries : List (AuthoredJoin × List String)) (front : List AuthoredJoin)
      (tree : JoinTree), SideBySide front tree → SideBySide (front ++ entries.map (·.1))
        (entries.foldl (fun tree entry => tree.pushAuthored entry.1 entry.2) tree) := by
    intro entries
    induction entries with
    | nil =>
      intro front tree hfront
      simpa using hfront
    | cons entry entries ih =>
      intro front tree hfront
      simpa using ih _ _ (hfront.pushAuthored entry.1 entry.2)
  have hzip := hall (placed.zip selects) [] ⟨[]⟩ SideBySide.nil
  rwa [List.nil_append, List.map_fst_zip (Nat.le_of_eq h)] at hzip

/-- The joins select what they were told to. -/
theorem selects_unattached {placed : List AuthoredJoin} {selects : List (List String)}
    (h : placed.length = selects.length) :
    (unattached placed selects).contents.map (·.select) = selects := by
  have hall : ∀ (entries : List (AuthoredJoin × List String)) (tree : JoinTree),
      (entries.foldl (fun tree entry => tree.pushAuthored entry.1 entry.2) tree).contents.map
        (·.select) = tree.contents.map (·.select) ++ entries.map (·.2) := by
    intro entries
    induction entries with
    | nil => simp
    | cons entry entries ih =>
      intro tree
      rw [List.foldl_cons, ih, JoinTree.pushAuthored, contents_push]
      simp [JoinNode.unlinked]
  rw [unattached, hall, List.map_snd_zip (Nat.le_of_eq h.symm)]
  rfl

/-! ### Attaching all joins -/

/-- The authored joins before a position are attached. Bridges may have been built for them. -/
structure Attached (authored : List JoinNode) (position : Nat) (tree : JoinTree) : Prop where
  holds : ∃ bridges, Holds authored bridges tree
  linked : tree.Linked
  /-- The base and the joins from the position on are loose. -/
  loose : ∀ id, tree.IsLoose id ↔ id = 0 ∨ (position ≤ id ∧ id < authored.length)

variable {P : Type} [Penalty P] {graph : JoinGraph P} {join : Join} {placed : List AuthoredJoin}
  {entry : AuthoredJoin} {position : Nat}

theorem Holds.trailOf?_of_lt (h : Holds authored bridges tree) (hid : id < authored.length) :
    tree.trailOf? id = authored[id]?.map (·.trail) := by
  rw [trailOf?_eq_contents, h.contents, List.getElem?_append_left hid]

/-- Attaching one more join. -/
theorem Attached.attach (h : Attached authored position tree) (hroot : Rooted base authored)
    (hplaced : Placement graph join placed)
    (htrails : authored.map (·.trail) = placed.map (·.trail))
    (hentry : placed[position]? = some entry) :
    Attached authored (position + 1) (tree.attach position entry) := by
  have hnode : authored[position]?.map (·.trail) = some entry.trail := by
    rw [← List.getElem?_map, htrails, List.getElem?_map, hentry, Option.map_some]
  obtain ⟨node, hauthored, htrail⟩ := Option.map_eq_some_iff.mp hnode
  have hlt : position < authored.length := (List.getElem?_eq_some_iff.mp hauthored).1
  cases position with
  | zero =>
    rw [hplaced.base] at hentry
    cases hentry
    refine ⟨h.holds, h.linked, fun id => (h.loose id).trans ?_⟩
    omega
  | succ i =>
    obtain ⟨bridges, hholds⟩ := h.holds
    rw [JoinTree.attach, if_neg (by simpa using hplaced.ancestors_ne_nil hentry)]
    have hlength := hplaced.one_lt_length_trail hentry
    obtain ⟨table, behind, hbehind⟩ : ∃ table behind, entry.trail = table :: behind :=
      List.exists_cons_of_length_pos (by omega)
    have hne : behind ≠ [] := by
      rintro rfl
      simp [hbehind] at hlength
    have hway : ∃ far ∈ authored, behind <:+ far.trail :=
      ⟨node, List.mem_of_getElem? hauthored, htrail ▸ hbehind ▸ List.suffix_cons table behind⟩
    rw [hbehind, List.drop_one, List.tail_cons]
    have hfound := attachPoint_spec entry.ancestors hroot hne hway hholds h.linked
    generalize tree.attachPoint entry.ancestors behind = found at hfound ⊢
    obtain ⟨more, hholds', -, hlinked', hloose', hpoint'⟩ := hfound
    have hloose : found.1.IsLoose (i + 1) :=
      (hloose' _).mpr ((h.loose _).mpr (.inr ⟨Nat.le_refl _, hlt⟩))
    have hchild : found.1.trailOf? (i + 1) = some (table :: behind) := by
      rw [hholds'.trailOf?_of_lt hlt, hnode, hbehind]
    refine ⟨⟨bridges ++ more, ?_⟩, hlinked'.adopt hloose hchild hpoint', fun id => ?_⟩
    · exact { hholds' with contents := by rw [contents_adopt, hholds'.contents] }
    · rw [isLoose_adopt_iff hloose.1, hloose', h.loose]
      omega

/-- **Attaching all joins.** Only the base stays loose. -/
theorem Attached.attachAll (hroot : Rooted base authored) (hplaced : Placement graph join placed)
    (htrails : authored.map (·.trail) = placed.map (·.trail)) {front rest : List AuthoredJoin}
    (hfront : front ++ rest = placed) (h : Attached authored front.length tree) :
    Attached authored authored.length (tree.attachAll front.length rest) := by
  induction rest generalizing front tree with
  | nil =>
    have hlength : authored.length = front.length := by
      simpa [← hfront] using congrArg List.length htrails
    rwa [JoinTree.attachAll, hlength]
  | cons entry rest ih =>
    have hentry : placed[front.length]? = some entry := by
      rw [← hfront, List.getElem?_append_right (Nat.le_refl _), Nat.sub_self,
        List.getElem?_cons_zero]
    have hstep := h.attach hroot hplaced htrails hentry
    rw [JoinTree.attachAll]
    have hfront' : (front ++ [entry]) ++ rest = placed := by simpa using hfront
    simpa using ih hfront' (by simpa using hstep)

end JoinTree

end JoinPlan
