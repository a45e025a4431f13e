import JoinPlan.Catalog.Assembly
import JoinPlan.Proofs.Adjacency
import JoinPlan.Proofs.Attachment

/-!
# The canonical tree is well-formed

Whatever is authored, the canonical tree is a tree: every join but the base has one place, below
the join whose path is its own without the last table, and is linked to it in the graph.

## Main definitions

* `JoinTree.Built`: what building a canonical tree has brought about.
* `JoinTree.WellFormed`: paths, parents, children and links agree.

## Main results

* `JoinTree.normalize_eq_ok_iff`: what a canonical tree is made of.
* `JoinTree.built_of_normalize`: every canonical tree was built.
* `JoinTree.Built.exists_above`: a join is linked to its parent and lies one table beyond it.
* `Join.wellFormed_of_normalize`: a canonical tree is well-formed.
-/

namespace JoinPlan

namespace JoinTree

variable {P : Type} [Penalty P] {graph : JoinGraph P} {catalog : Catalog} {base : Join}
  {tree : JoinTree} {placed : List AuthoredJoin} {authored bridges : List JoinNode} {id : Nat}
  {node : JoinNode}

/-- The tree was built from the joins of an authored one in their places. -/
structure Built (graph : JoinGraph P) (base : Join) (placed : List AuthoredJoin)
    (authored bridges : List JoinNode) (tree : JoinTree) : Prop where
  placement : Placement graph base placed
  standsFor : List.Forall₂ JoinNode.StandsFor authored placed
  holds : Holds authored bridges tree
  linked : tree.Linked
  loose : ∀ id, tree.IsLoose id ↔ id = 0

/-! ### Trees are built -/

theorem trails_eq (h : List.Forall₂ JoinNode.StandsFor authored placed) :
    authored.map (·.trail) = placed.map (·.trail) :=
  map_eq_map_of_forall₂ h fun _ _ hstands => hstands.trail

theorem rooted_of_placement (hplaced : Placement graph base placed)
    (h : List.Forall₂ JoinNode.StandsFor authored placed) : Rooted base.table authored where
  root := by
    have htrail := congrArg (·[0]?) (trails_eq h)
    simp only [List.getElem?_map, hplaced.base, Option.map_some] at htrail
    obtain ⟨node, hnode, htrail⟩ := Option.map_eq_some_iff.mp htrail
    exact ⟨node, List.mem_of_getElem? hnode, htrail⟩
  last := by
    intro node hnode
    obtain ⟨i, hi⟩ := List.getElem?_of_mem hnode
    obtain ⟨entry, hentry, hstands⟩ := getElem?_of_forall₂ h hi
    rw [hstands.trail]
    exact (hplaced.leadsBack hentry).last

/-- Before any join is attached all are loose. -/
theorem attached_unattached {selects : List (List String)} (hplaced : Placement graph base placed)
    (hlength : placed.length = selects.length) :
    Attached (unattached placed selects).contents 0 (unattached placed selects) := by
  have hside := sideBySide_unattached hlength
  have hpos : 0 < placed.length := (List.getElem?_eq_some_iff.mp hplaced.base).1
  refine ⟨⟨[], ?_⟩, hside.linked, fun id => (hside.loose id).trans ?_⟩
  · constructor <;> simp
  · have hcount := hside.standsFor.length_eq
    rw [length_contents] at hcount ⊢
    omega

theorem built_ofPlaced {selects : List (List String)} (hplaced : Placement graph base placed)
    (hlength : placed.length = selects.length) :
    ∃ bridges, Built graph base placed (unattached placed selects).contents bridges
      (ofPlaced placed selects) := by
  have hside := sideBySide_unattached hlength
  have hpos : 0 < placed.length := (List.getElem?_eq_some_iff.mp hplaced.base).1
  obtain ⟨⟨bridges, hholds⟩, hlinked, hloose⟩ :=
    Attached.attachAll (rooted_of_placement hplaced hside.standsFor) hplaced
      (trails_eq hside.standsFor) (List.nil_append placed) (attached_unattached hplaced hlength)
  refine ⟨bridges, hplaced, hside.standsFor, hholds, hlinked, fun id => (hloose id).trans ?_⟩
  have hcount := hside.standsFor.length_eq
  omega

/-- A canonical tree is built from the joins in their places, with the columns that each selects. -/
theorem normalize_eq_ok_iff : base.normalize catalog graph = .ok tree ↔
    ∃ linked placed selects, catalog.findLinkedTable base.table = .ok linked ∧
      base.placed catalog graph = .ok placed ∧
      placed.mapM (fun entry => entry.join.checkedSelect catalog) = .ok selects ∧
      ofPlaced placed selects = tree := by
  rw [Join.normalize]
  simp only [bind_eq_ok_iff, pure_eq_ok_iff]
  constructor
  · rintro ⟨linked, hlinked, placed, hplaced, selects, hselects, htree⟩
    exact ⟨linked, placed, selects, hlinked, hplaced, hselects, htree⟩
  · rintro ⟨linked, placed, selects, hlinked, hplaced, hselects, htree⟩
    exact ⟨linked, hlinked, placed, hplaced, selects, hselects, htree⟩

/-- **Every canonical tree was built.** -/
theorem built_of_normalize (h : base.normalize catalog graph = .ok tree) :
    ∃ placed authored bridges, Built graph base placed authored bridges tree := by
  obtain ⟨_, placed, selects, -, hplaced, hselects, rfl⟩ := normalize_eq_ok_iff.mp h
  exact ⟨placed, _, built_ofPlaced (Join.placement_of_placed hplaced)
    (mapM_eq_ok_iff.mp hselects).length_eq⟩

/-! ### What was built -/

namespace Built

theorem leadsBack_of_mem_authored (h : Built graph base placed authored bridges tree)
    (hnode : node ∈ authored) : graph.LeadsBack base.table node.table node.trail := by
  obtain ⟨i, hi⟩ := List.getElem?_of_mem hnode
  obtain ⟨entry, hentry, hstands⟩ := getElem?_of_forall₂ h.standsFor hi
  rw [hstands.table, hstands.trail]
  exact h.placement.leadsBack hentry

theorem leadsBack_of_mem_bridges (h : Built graph base placed authored bridges tree)
    (hnode : node ∈ bridges) : graph.LeadsBack base.table node.table node.trail := by
  obtain ⟨far, hfar, hsuffix⟩ := h.holds.onWay node hnode
  obtain ⟨behind, hbehind⟩ := List.head?_eq_some_iff.mp (h.holds.isBridge node hnode).head
  rw [hbehind] at hsuffix ⊢
  exact (h.leadsBack_of_mem_authored hfar).suffix hsuffix

theorem getElem?_contents (h : Built graph base placed authored bridges tree)
    (hnode : tree.node? id = some node) : (authored ++ bridges)[id]? = some node.unlinked := by
  rw [← h.holds.contents, JoinTree.getElem?_contents, hnode, Option.map_some]

/-- The tables of a trail lead from the join back to the base. -/
theorem leadsBack (h : Built graph base placed authored bridges tree)
    (hnode : tree.node? id = some node) : graph.LeadsBack base.table node.table node.trail := by
  have hback : graph.LeadsBack base.table node.unlinked.table node.unlinked.trail := by
    rcases List.mem_append.mp (List.mem_of_getElem? (h.getElem?_contents hnode)) with hmem | hmem
    · exact h.leadsBack_of_mem_authored hmem
    · exact h.leadsBack_of_mem_bridges hmem
  exact hback

theorem trailOf?_zero (h : Built graph base placed authored bridges tree) :
    tree.trailOf? 0 = some [base.table] := by
  have hpos : 0 < placed.length := (List.getElem?_eq_some_iff.mp h.placement.base).1
  rw [h.holds.trailOf?_of_lt (h.standsFor.length_eq.symm ▸ hpos), ← List.getElem?_map,
    trails_eq h.standsFor, List.getElem?_map, h.placement.base, Option.map_some]

/-- A join other than the base has a parent, whose trail is the rest of its own. -/
theorem exists_parent (h : Built graph base placed authored bridges tree) (hid : id ≠ 0)
    {trail : List TableRef} (htrail : tree.trailOf? id = some trail) :
    ∃ parent table behind, tree.parentOf? id = some parent ∧ trail = table :: behind ∧
      tree.trailOf? parent = some behind := by
  cases hparent : tree.parentOf? id with
  | none => exact absurd ((h.loose id).mp ⟨lt_length_of_trailOf? htrail, hparent⟩) hid
  | some parent =>
    obtain ⟨table, behind, hchild, habove⟩ := h.linked.beyond id parent hparent
    rw [htrail] at hchild
    exact ⟨parent, table, behind, rfl, Option.some.inj hchild, habove⟩

/-- A join other than the base is linked to its parent and lies one table beyond it. -/
theorem exists_above (h : Built graph base placed authored bridges tree) (hid : id ≠ 0)
    (hnode : tree.node? id = some node) :
    ∃ parent above, tree.parentOf? id = some parent ∧ tree.node? parent = some above ∧
      node.trail = node.table :: above.trail ∧ graph.Adjacent above.table node.table := by
  obtain ⟨parent, table, behind, hparent, hsplit, hbehind⟩ :=
    h.exists_parent hid (trailOf?_eq hnode)
  obtain ⟨above, habove, rfl⟩ := Option.map_eq_some_iff.mp hbehind
  have hback := h.leadsBack hnode
  obtain ⟨further, hfurther⟩ := (h.leadsBack habove).eq_cons
  have htable : table = node.table := by simpa [hsplit] using hback.head
  subst htable
  have hchain := hback.chain
  rw [hsplit, hfurther] at hchain
  exact ⟨parent, above, hparent, habove, hsplit, (List.isChain_cons_cons.mp hchain).1⟩

/-- The children of a join lie one table beyond it and are linked to it. -/
theorem beyond_of_mem_children (h : Built graph base placed authored bridges tree)
    (hnode : tree.node? id = some node) {child : Nat} (hmem : child ∈ node.children)
    {below : JoinNode} (hbelow : tree.node? child = some below) :
    below.trail = below.table :: node.trail ∧ graph.Adjacent node.table below.table := by
  have hparent := (h.linked.mem_children_iff hnode).mp hmem
  have hchild : child ≠ 0 := by
    rintro rfl
    rw [((h.loose 0).mpr rfl).2] at hparent
    cases hparent
  obtain ⟨parent, above, hparent', habove, hbeyond⟩ := h.exists_above hchild hbelow
  cases hparent.symm.trans hparent'
  cases hnode.symm.trans habove
  exact hbeyond

end Built

end JoinTree

/-! ### Well-formed trees -/

/-- Paths, parents, children and links agree in a tree with a given base. -/
structure JoinTree.WellFormed {P : Type} (graph : JoinGraph P) (base : TableRef)
    (tree : JoinTree) : Prop where
  /-- The base stands below nothing, and its path is the shortest. -/
  root : ∃ node, tree.node? JoinTree.root = some node ∧ node.parent = none ∧ node.path = [base]
  /-- Every other join has its place below one join only. It lies one table beyond that join and is
  linked to it, in both directions. -/
  below : ∀ id node, id ≠ JoinTree.root → tree.node? id = some node →
    ∃ parent above, node.parent = some parent ∧ tree.node? parent = some above ∧
      above.children.count id = 1 ∧
      (∀ other beside, other ≠ parent → tree.node? other = some beside → id ∉ beside.children) ∧
      node.path = above.path ++ [node.table] ∧
      graph.Adjacent above.table node.table ∧ graph.Adjacent node.table above.table ∧
      (node.table = above.table → graph.hasSelfLoop node.table = true)
  /-- Children are joins that know their parent. -/
  children : ∀ id node child, tree.node? id = some node → child ∈ node.children →
    ∃ below, tree.node? child = some below ∧ below.parent = some id

variable {P : Type} [Penalty P]

/-- **A canonical tree is well-formed**, whatever the catalog, the tables left out and the penalties
that decide between paths. -/
theorem Join.wellFormed_of_normalize (penalty : TableRef → TableRef → P) (catalog : Catalog)
    (ignored : List TableRef) (base : Join) (tree : JoinTree)
    (h : base.normalize catalog (JoinGraph.ofCatalog penalty catalog ignored) = .ok tree) :
    tree.WellFormed (JoinGraph.ofCatalog penalty catalog ignored) base.table := by
  obtain ⟨placed, authored, bridges, hbuilt⟩ := JoinTree.built_of_normalize h
  refine ⟨?_, ?_, ?_⟩
  · obtain ⟨node, hnode, htrail⟩ := Option.map_eq_some_iff.mp hbuilt.trailOf?_zero
    have hparent := ((hbuilt.loose 0).mpr rfl).2
    rw [JoinTree.parentOf?_eq hnode] at hparent
    exact ⟨node, hnode, hparent, by rw [JoinNode.path, htrail, List.reverse_singleton]⟩
  · intro id node hid hnode
    obtain ⟨parent, above, hparent, habove, htrail, hadjacent⟩ := hbuilt.exists_above hid hnode
    refine ⟨parent, above, JoinTree.parentOf?_eq hnode ▸ hparent, habove,
      hbuilt.linked.count_children hparent habove, ?_, ?_, hadjacent,
      JoinGraph.adjacent_ofCatalog_symm hadjacent, ?_⟩
    · intro other beside hother hbeside hmem
      rw [hbuilt.linked.mem_children_iff hbeside, hparent] at hmem
      exact hother (Option.some.inj hmem).symm
    · rw [JoinNode.path, JoinNode.path, htrail, List.reverse_cons]
    · intro hsame
      exact JoinGraph.hasSelfLoop_iff.mpr (hsame ▸ hadjacent)
  · intro id node child hnode hchild
    have hparent := (hbuilt.linked.mem_children_iff hnode).mp hchild
    exact Option.bind_eq_some_iff.mp hparent

/-- The columns of a shop. -/
def shopColumns : List ListedColumn :=
  [⟨⟨"shop", "customers"⟩, "id", "integer", .number, false, true⟩,
    ⟨⟨"shop", "orders"⟩, "id", "integer", .number, false, true⟩,
    ⟨⟨"shop", "orders"⟩, "customer", "integer", .number, false, false⟩,
    ⟨⟨"shop", "parcels"⟩, "order", "integer", .number, false, false⟩]

/-- Parcels belong to orders, and orders to customers. -/
def shopKeys : List Relationship :=
  [⟨⟨"shop", "orders"⟩, "customer", ⟨"shop", "customers"⟩, "id"⟩,
    ⟨⟨"shop", "parcels"⟩, "order", ⟨"shop", "orders"⟩, "id"⟩]

/-- Customers with their parcels, which lie two keys away. -/
def parcelsOfCustomers : Join :=
  ⟨⟨"shop", "customers"⟩, [], .all, none, [], [⟨⟨"shop", "parcels"⟩, [], .all, none, [], []⟩]⟩

/-- The catalog of the shop. -/
def shop : Catalog :=
  .assemble shopColumns shopKeys

theorem wellFormed_parcelsOfCustomers :
    ∃ tree, parcelsOfCustomers.normalize shop (JoinGraph.ofCatalog (fun _ _ => (0 : Nat)) shop []) =
        .ok tree ∧
      tree.WellFormed (JoinGraph.ofCatalog (fun _ _ => (0 : Nat)) shop [])
        ⟨"shop", "customers"⟩ := by
  have hpositions : (parcelsOfCustomers.normalize shop
      (JoinGraph.ofCatalog (fun _ _ => (0 : Nat)) shop [])).map (·.preOrder) = .ok [0, 2, 1] := by
    decide +kernel
  obtain ⟨tree, htree, -⟩ := map_eq_ok_iff.mp hpositions
  exact ⟨tree, htree, Join.wellFormed_of_normalize _ _ _ _ _ htree⟩

end JoinPlan
