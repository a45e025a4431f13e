import JoinPlan.Proofs.Compilable

/-!
# Joins up to the order of children

The place of a join only depends on the joins it is written under: on their tables, on the waypoints
on the way down, and on the table of the base. So joins that differ in the order of children have
the same places, and whether there are any can be told from each join and its children as a whole.

Positions do depend on the order, so places are described without them.

## Main definitions

* `Join.Reordered`: two joins are the same up to the order of children, at any depth.
* `Join.places`: the joins of a tree, each with what leads back to the base from it.

## Main results

* `Join.Reordered.symm`: being reordered is symmetric.
* `Join.Reordered.exists_normalize_iff`: reordered joins have canonical trees or none together.
* `Join.Reordered.perm_places`, `Join.Reordered.perm_placed`: they have the same places.
-/

namespace JoinPlan

/-! ### Joins up to the order of children -/

/-- The join without its children. -/
def Join.alone (join : Join) : Join :=
  { join with joins := [] }

/-- Two joins are the same up to the order of children, at any depth: they only differ in their
children, and each child of the first is so related to one of the second. -/
inductive Join.Reordered : Join → Join → Prop
  | intro {a b : Join} {joins : List Join} (alone : a.alone = b.alone)
      (each : List.Forall₂ Join.Reordered a.joins joins) (order : joins.Perm b.joins) :
      Join.Reordered a b

theorem Join.preOrderAll_eq (joins : List Join) :
    Join.preOrderAll joins = joins.flatMap Join.preOrder := by
  induction joins with
  | nil => rfl
  | cons join rest ih => rw [preOrderAll, ih, List.flatMap_cons]

namespace Join.Reordered

variable {a b : Join}

mutual

theorem symm : ∀ {a b : Join}, a.Reordered b → b.Reordered a
  | ⟨_, _, _, _, _, _⟩, ⟨_, _, _, _, _, _⟩, .intro alone each order => by
    obtain ⟨joins, heach, horder⟩ := List.perm_comp_forall₂ order.symm (forall₂_symm each)
    exact .intro alone.symm heach horder

theorem forall₂_symm : ∀ {as bs : List Join}, List.Forall₂ Join.Reordered as bs →
    List.Forall₂ Join.Reordered bs as
  | _, _, .nil => .nil
  | _, _, .cons first rest => .cons first.symm (forall₂_symm rest)

end

theorem alone_eq (h : a.Reordered b) : a.alone = b.alone := by
  obtain ⟨halone, -, -⟩ := h
  exact halone

theorem table (h : a.Reordered b) : a.table = b.table :=
  (congrArg Join.table h.alone_eq :)

theorem via (h : a.Reordered b) : a.via = b.via :=
  (congrArg Join.via h.alone_eq :)

/-- A selection is checked without a look at the children. -/
theorem checkedSelect (catalog : Catalog) (h : a.Reordered b) :
    a.checkedSelect catalog = b.checkedSelect catalog :=
  (congrArg (Join.checkedSelect catalog) h.alone_eq :)

mutual

/-- Every join of the second tree is one of the first up to the order of children. -/
theorem exists_mem_preOrder : ∀ {a b : Join}, a.Reordered b →
    ∀ other ∈ b.preOrder, ∃ join ∈ a.preOrder, join.Reordered other
  | ⟨_, _, _, _, _, _⟩, ⟨_, _, _, _, _, _⟩, .intro alone each order, other, hother => by
    rw [preOrder_eq, List.mem_cons] at hother
    simp only [preOrder_eq, List.exists_mem_cons_iff]
    rcases hother with rfl | hbelow
    · exact .inl (.intro alone each order)
    · rw [preOrderAll_eq, ← (order.flatMap_right _).mem_iff, ← preOrderAll_eq] at hbelow
      exact .inr (exists_mem_preOrderAll each other hbelow)

theorem exists_mem_preOrderAll : ∀ {as bs : List Join}, List.Forall₂ Join.Reordered as bs →
    ∀ other ∈ Join.preOrderAll bs, ∃ join ∈ Join.preOrderAll as, join.Reordered other
  | _, _, .nil, other, hother => by cases hother
  | _, _, .cons first rest, other, hother => by
    rw [preOrderAll, List.mem_append] at hother
    simp only [preOrderAll, List.mem_append, or_and_right, exists_or]
    exact hother.imp (exists_mem_preOrder first other) (exists_mem_preOrderAll rest other)

end

/-- What holds of joins up to the order of children and holds of all joins of one tree holds of all
joins of the other. -/
theorem forall_mem_preOrder_iff (h : a.Reordered b) {p : Join → Prop}
    (hp : ∀ join other : Join, join.Reordered other → p join → p other) :
    (∀ join ∈ a.preOrder, p join) ↔ ∀ join ∈ b.preOrder, p join := by
  have hone : ∀ {a b : Join}, a.Reordered b → (∀ join ∈ a.preOrder, p join) →
      ∀ join ∈ b.preOrder, p join := by
    intro a b h hall other hother
    obtain ⟨join, hjoin, hreordered⟩ := h.exists_mem_preOrder other hother
    exact hp join other hreordered (hall join hjoin)
  exact ⟨hone h, hone h.symm⟩

end Join.Reordered

/-! ### Places -/

variable {P : Type} {catalog : Catalog} {graph : JoinGraph P} {a b : Join}

theorem Join.Reordered.placeable (h : a.Reordered b) (hplaceable : a.Placeable catalog graph) :
    b.Placeable catalog graph := by
  have htable := h.table
  obtain ⟨-, each, order⟩ := h
  obtain ⟨hfound, hsiblings, hroutes⟩ := hplaceable
  rw [htable] at hfound hroutes
  rw [map_eq_map_of_forall₂ each fun _ _ hchild => hchild.table,
    (order.map _).nodup_iff] at hsiblings
  have hroutes := (forall_iff_of_forall₂ each fun join other hchild => by
    rw [hchild.table, hchild.via]).mp hroutes
  exact ⟨hfound, hsiblings, fun child hchild => hroutes child (order.mem_iff.mpr hchild)⟩

variable [Penalty P]

/-- **Reordered joins have canonical trees or none together.** -/
theorem Join.Reordered.exists_normalize_iff (h : a.Reordered b) :
    (∃ tree, a.normalize catalog graph = .ok tree) ↔
      ∃ tree, b.normalize catalog graph = .ok tree := by
  rw [exists_normalize_iff_forall, exists_normalize_iff_forall, h.table]
  refine and_congr_right fun _ => h.forall_mem_preOrder_iff fun join other hsame hjoin => ?_
  exact ⟨hsame.placeable hjoin.1, hsame.checkedSelect catalog ▸ hjoin.2⟩

/-- What leads back to the base from a join below a table, if something leads back from there and
the join can be reached. -/
def Join.trailBelow (graph : JoinGraph P) (table : TableRef)
    (trail : Except QueryError (List TableRef)) (join : Join) :
    Except QueryError (List TableRef) := do
  let behind ← trail
  let route ← graph.resolveRoute table join.table join.via
  return (route.drop 1).reverse ++ behind

mutual

/-- The joins of a tree without their children, each with what leads back to the base from it. -/
def Join.places (graph : JoinGraph P) (trail : Except QueryError (List TableRef)) :
    Join → List (Join × Except QueryError (List TableRef))
  | join@⟨table, _, _, _, _, joins⟩ => (join.alone, trail) :: Join.placesAll graph table trail joins

/-- The joins of all trees of a list that stand below a table. -/
def Join.placesAll (graph : JoinGraph P) (table : TableRef)
    (trail : Except QueryError (List TableRef)) :
    List Join → List (Join × Except QueryError (List TableRef))
  | [] => []
  | join :: rest =>
    join.places graph (join.trailBelow graph table trail) ++ Join.placesAll graph table trail rest

end

theorem Join.places_eq (trail : Except QueryError (List TableRef)) (join : Join) :
    join.places graph trail =
      (join.alone, trail) :: Join.placesAll graph join.table trail join.joins := by
  obtain ⟨_, _, _, _, _, _⟩ := join
  rw [places]

theorem Join.placesAll_eq (table : TableRef) (trail : Except QueryError (List TableRef))
    (joins : List Join) : Join.placesAll graph table trail joins =
      joins.flatMap fun join => join.places graph (join.trailBelow graph table trail) := by
  induction joins with
  | nil => rw [placesAll, List.flatMap_nil]
  | cons join rest ih => rw [placesAll, ih, List.flatMap_cons]

mutual

/-- **Reordered joins have the same places up to order.** -/
theorem Join.Reordered.perm_places (trail : Except QueryError (List TableRef)) :
    ∀ {a b : Join}, a.Reordered b → (a.places graph trail).Perm (b.places graph trail)
  | ⟨_, _, _, _, _, _⟩, ⟨_, _, _, _, _, _⟩, .intro alone each order => by
    have htable := (Join.Reordered.intro alone each order).table
    rw [places_eq, places_eq, alone, htable]
    refine ((perm_placesAll _ trail each).trans ?_).cons _
    rw [placesAll_eq, placesAll_eq]
    exact order.flatMap_right _

theorem Join.Reordered.perm_placesAll (table : TableRef)
    (trail : Except QueryError (List TableRef)) : ∀ {as bs : List Join},
    List.Forall₂ Join.Reordered as bs →
      (Join.placesAll graph table trail as).Perm (Join.placesAll graph table trail bs)
  | _, _, .nil => .refl _
  | _, _, .cons first rest => by
    rw [placesAll, placesAll, trailBelow, trailBelow, first.table, first.via]
    exact (perm_places _ first).append (perm_placesAll table trail rest)

end

/-- The join of a placed one without its children, and what leads back to the base from it. -/
def AuthoredJoin.view (entry : AuthoredJoin) : Join × Except QueryError (List TableRef) :=
  (entry.join.alone, .ok entry.trail)

mutual

/-- Joins are placed where they can be reached, whatever positions they get. -/
theorem Join.places_of_placedFrom {parent : Option (Nat × AuthoredJoin)} {position : Nat} :
    ∀ {join : Join} {placed : List AuthoredJoin},
      join.placedFrom catalog graph parent position = .ok placed →
      ∃ head, join.place graph parent = .ok head ∧
        placed.map AuthoredJoin.view = join.places graph (.ok head.trail)
  | ⟨_, _, _, _, _, joins⟩, placed, h => by
    rw [placedFrom_eq] at h
    obtain ⟨_, -, h⟩ := bind_eq_ok_iff.mp h
    obtain ⟨head, hhead, h⟩ := bind_eq_ok_iff.mp h
    obtain ⟨_, -, h⟩ := bind_eq_ok_iff.mp h
    obtain ⟨below, hbelow, h⟩ := bind_eq_ok_iff.mp h
    cases h
    refine ⟨head, hhead, ?_⟩
    rw [places_eq, List.map_cons, Join.places_of_placedAll hbelow, AuthoredJoin.view,
      join_of_place hhead]

theorem Join.places_of_placedAll {position number : Nat} {above : AuthoredJoin} :
    ∀ {joins : List Join} {placed : List AuthoredJoin},
      Join.placedAll catalog graph (some (number, above)) position joins = .ok placed →
      placed.map AuthoredJoin.view =
        Join.placesAll graph above.join.table (.ok above.trail) joins
  | [], placed, h => by
    rw [placedAll] at h
    cases h
    rw [placesAll, List.map_nil]
  | join :: rest, placed, h => by
    rw [placedAll] at h
    obtain ⟨first, hfirst, h⟩ := bind_eq_ok_iff.mp h
    obtain ⟨others, hothers, h⟩ := bind_eq_ok_iff.mp h
    cases h
    obtain ⟨head, hhead, hplaces⟩ := Join.places_of_placedFrom hfirst
    obtain ⟨route, hroute, hhead⟩ := bind_eq_ok_iff.mp hhead
    cases hhead
    have htrail : join.trailBelow graph above.join.table (.ok above.trail) =
        .ok ((route.drop 1).reverse ++ above.trail) := by
      rw [trailBelow, ok_bind_eq, hroute, ok_bind_eq]
      rfl
    rw [List.map_append, hplaces, placesAll, htrail, Join.places_of_placedAll hothers]

end

theorem Join.Reordered.perm_placed (h : a.Reordered b) {placed placed' : List AuthoredJoin}
    (ha : a.placed catalog graph = .ok placed) (hb : b.placed catalog graph = .ok placed') :
    (placed.map AuthoredJoin.view).Perm (placed'.map AuthoredJoin.view) := by
  obtain ⟨_, ⟨⟩, hplaces⟩ := places_of_placedFrom ha
  obtain ⟨_, ⟨⟩, hplaces'⟩ := places_of_placedFrom hb
  rw [hplaces, hplaces', h.table]
  exact h.perm_places _

end JoinPlan
