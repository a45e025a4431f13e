import JoinPlan.Proofs.Placement

/-!
# Which joins have a place

Placing the authored joins of a tree succeeds under conditions on each join and its children alone:
that the table exists, that no two children join the same table, and that each child can be reached.
Where the join stands in the tree, and what path leads to it, makes no difference.

## Main definitions

* `JoinGraph.Reaches`: there is a leg from one table to another.
* `JoinGraph.Routable`: there is a route through given tables.
* `Join.Placeable`: the conditions on one join.

## Main results

* `JoinGraph.exists_resolveRoute_iff`: the routes that are found.
* `Join.exists_placed_iff`: the trees whose joins all have a place.
-/

namespace JoinPlan

/-! ### Routes -/

theorem waypointFault?_eq_none_iff {source target : TableRef} {via : List TableRef} :
    waypointFault? source target via = none ↔
      via.Nodup ∧ source ∉ via ∧ via.getLast? ≠ some target := by
  rw [waypointFault?]
  split_ifs with hrepeated hsource hlast
  · simp [hrepeated, hsource]
  · simp [hsource, hlast]
  · simp [hrepeated, hsource, hlast]
  · simp [hrepeated]

namespace JoinGraph

variable {P : Type} [Penalty P] {graph : JoinGraph P} {source target : TableRef}
  {via stops : List TableRef}

/-- A leg leads from one table to another: there is a walk, or a foreign key of the table to itself
if they are the same. -/
def Reaches (graph : JoinGraph P) (source target : TableRef) : Prop :=
  if source = target then graph.hasSelfLoop source = true else graph.Connected source target

/-- A route leads from one table through others to a third. Nothing is wrong with the waypoints,
and there is a leg from each table to the next. -/
structure Routable (graph : JoinGraph P) (source target : TableRef) (via : List TableRef) :
    Prop where
  nodup : via.Nodup
  not_passed : source ∉ via
  not_last : via.getLast? ≠ some target
  legs : (source :: (via ++ [target])).IsChain graph.Reaches

theorem leg?_isSome_iff :
    (graph.leg? source target).isSome = true ↔ graph.Reaches source target := by
  rw [leg?, Reaches]
  split_ifs with hsame hloop
  · simp [hloop]
  · simp [hloop]
  · rw [Option.isSome_map, cheapestTrail?_isSome_iff]

theorem legs?_isSome_iff :
    (graph.legs? source stops).isSome = true ↔ (source :: stops).IsChain graph.Reaches := by
  induction stops generalizing source with
  | nil => simp [legs?]
  | cons stop stops ih =>
    rw [List.isChain_cons_cons, ← leg?_isSome_iff, ← ih, legs?]
    cases graph.leg? source stop with
    | none => simp
    | some leg => cases graph.legs? stop stops <;> simp

/-- **A route is found exactly where there is one.** -/
theorem exists_resolveRoute_iff :
    (∃ route, graph.resolveRoute source target via = .ok route) ↔
      graph.Routable source target via := by
  rw [resolveRoute]
  cases hfault : waypointFault? source target via with
  | some fault =>
    refine iff_of_false (by simp) fun h => ?_
    rw [waypointFault?_eq_none_iff.mpr ⟨h.nodup, h.not_passed, h.not_last⟩] at hfault
    cases hfault
  | none =>
    obtain ⟨hnodup, hsource, htarget⟩ := waypointFault?_eq_none_iff.mp hfault
    have hlegs : (∃ rest, graph.legs? source (via ++ [target]) = some rest) ↔
        (source :: (via ++ [target])).IsChain graph.Reaches := by
      rw [← legs?_isSome_iff, Option.isSome_iff_exists]
    dsimp only
    constructor
    · rintro ⟨route, hroute⟩
      split at hroute
      · rename_i rest hrest
        exact ⟨hnodup, hsource, htarget, hlegs.mp ⟨rest, hrest⟩⟩
      · cases hroute
    · intro h
      obtain ⟨rest, hrest⟩ := hlegs.mpr h.legs
      rw [hrest]
      exact ⟨_, rfl⟩

end JoinGraph

/-! ### Siblings -/

theorem firstRepeat?_eq_none_iff {seen tables : List TableRef} :
    firstRepeat? seen tables = none ↔ tables.Nodup ∧ ∀ table ∈ tables, table ∉ seen := by
  induction tables generalizing seen with
  | nil => simp [firstRepeat?]
  | cons table rest ih =>
    rw [firstRepeat?, List.nodup_cons, List.forall_mem_cons]
    split_ifs with hseen
    · simp [hseen]
    · rw [ih]
      simp only [List.mem_cons, not_or, hseen, not_false_eq_true, true_and, forall_and]
      constructor
      · rintro ⟨hnodup, hne, hrest⟩
        exact ⟨⟨fun hmem => hne table hmem rfl, hnodup⟩, hrest⟩
      · rintro ⟨⟨hnot, hnodup⟩, hrest⟩
        exact ⟨hnodup, fun other hmem heq => hnot (heq ▸ hmem), hrest⟩

theorem checkSiblings_eq_ok_iff {trail : List TableRef} {joins : List Join} :
    checkSiblings trail joins = .ok () ↔ (joins.map (·.table)).Nodup := by
  have hnone : firstRepeat? [] (joins.map (·.table)) = none ↔ (joins.map (·.table)).Nodup := by
    simp [firstRepeat?_eq_none_iff]
  rw [checkSiblings, ← hnone]
  cases firstRepeat? [] (joins.map (·.table)) <;> simp

/-! ### Places -/

variable {P : Type} [Penalty P] {catalog : Catalog} {graph : JoinGraph P}

/-- The table of the join exists, and there is a way on to each of its children, which join
different tables. -/
structure Join.Placeable (catalog : Catalog) (graph : JoinGraph P) (join : Join) : Prop where
  table : ∃ table, catalog.findTable join.table = .ok table
  siblings : (join.joins.map (·.table)).Nodup
  routes : ∀ child ∈ join.joins, graph.Routable join.table child.table child.via

theorem Join.exists_place_iff {parent : Option (Nat × AuthoredJoin)} {join : Join} :
    (∃ entry, join.place graph parent = .ok entry) ↔
      ∀ above ∈ parent, graph.Routable above.2.join.table join.table join.via := by
  cases parent with
  | none => simp [place]
  | some above =>
    simp only [place, exists_bind_eq_ok_iff, pure_eq_ok_iff, exists_eq', and_true,
      JoinGraph.exists_resolveRoute_iff, Option.mem_some_iff, forall_eq']

mutual

theorem Join.exists_placedFrom_iff {parent : Option (Nat × AuthoredJoin)} {position : Nat} :
    ∀ {join : Join}, (∃ placed, join.placedFrom catalog graph parent position = .ok placed) ↔
      (∀ above ∈ parent, graph.Routable above.2.join.table join.table join.via) ∧
        ∀ other ∈ join.preOrder, other.Placeable catalog graph
  | ⟨table, via, select, condition, orderBy, joins⟩ => by
    rw [placedFrom_eq, ← Join.exists_place_iff, Join.preOrder_eq, List.forall_mem_cons]
    simp only [exists_bind_eq_ok_iff, pure_eq_ok_iff, exists_eq', and_true,
      Join.exists_placedAll_iff]
    constructor
    · rintro ⟨table, htable, entry, hentry, _, hsiblings, hroutes, hbelow⟩
      refine ⟨⟨entry, hentry⟩, ⟨⟨table, htable⟩, checkSiblings_eq_ok_iff.mp hsiblings, ?_⟩, hbelow⟩
      intro child hchild
      have hroute := hroutes child hchild _ rfl
      rwa [join_of_place hentry] at hroute
    · rintro ⟨⟨entry, hentry⟩, ⟨⟨table, htable⟩, hsiblings, hroutes⟩, hbelow⟩
      refine ⟨table, htable, entry, hentry, (), checkSiblings_eq_ok_iff.mpr hsiblings, ?_, hbelow⟩
      rintro child hchild _ ⟨⟩
      rw [join_of_place hentry]
      exact hroutes child hchild

theorem Join.exists_placedAll_iff {parent : Option (Nat × AuthoredJoin)} {position : Nat} :
    ∀ {joins : List Join},
      (∃ placed, Join.placedAll catalog graph parent position joins = .ok placed) ↔
        (∀ join ∈ joins, ∀ above ∈ parent,
          graph.Routable above.2.join.table join.table join.via) ∧
        ∀ other ∈ Join.preOrderAll joins, other.Placeable catalog graph
  | [] => by
    simp [placedAll, preOrderAll]
  | join :: rest => by
    rw [placedAll, preOrderAll, List.forall_mem_cons, List.forall_mem_append]
    simp only [exists_bind_eq_ok_iff, pure_eq_ok_iff, exists_eq', and_true,
      Join.exists_placedAll_iff]
    constructor
    · rintro ⟨first, hfirst, hroutes, hrest⟩
      obtain ⟨hroute, hbelow⟩ := Join.exists_placedFrom_iff.mp ⟨first, hfirst⟩
      exact ⟨⟨hroute, hroutes⟩, hbelow, hrest⟩
    · rintro ⟨⟨hroute, hroutes⟩, hbelow, hrest⟩
      obtain ⟨first, hfirst⟩ := Join.exists_placedFrom_iff.mpr ⟨hroute, hbelow⟩
      exact ⟨first, hfirst, hroutes, hrest⟩

end

/-- **All joins of a tree have a place** exactly if each is placeable. -/
theorem Join.exists_placed_iff {base : Join} :
    (∃ placed, base.placed catalog graph = .ok placed) ↔
      ∀ join ∈ base.preOrder, join.Placeable catalog graph := by
  rw [Join.placed, Join.exists_placedFrom_iff]
  simp

end JoinPlan
