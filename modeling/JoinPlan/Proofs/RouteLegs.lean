import JoinPlan.Proofs.Routability

/-!
# Routes leg by leg

A route through waypoints is put together from legs, each by a path with as few hops as there can
be. A leg starts at the table where the one before it ends, and that table is written once.

Nothing keeps a leg from passing a table that comes up elsewhere: the target may be a waypoint, if
not the last, and a leg may pass a waypoint that a later one leads to. What the checks of waypoints
do keep out is a leg from a table to itself. There is one only where a table is joined to itself
without waypoints, over a foreign key.

## Main definitions

* `WaypointsFit`: nothing is wrong with a list of waypoints, whatever the graph.
* `JoinGraph.Passable`: each table of a route is connected with the next.
* `JoinGraph.Distance`: how many hops lead from one table to another.
* `JoinGraph.ShortLeg`, `JoinGraph.ShortLegs`: a leg of as many hops, and one after another.
* `JoinGraph.Spliced`: a route that is put together from such legs.

## Main results

* `isChain_ne_of_waypointsFit`: no leg leads from a table to itself.
* `JoinGraph.ShortLegs.getElem?_flatten`: where the stops come up in a route.
* `JoinGraph.resolveRoute_splices`: which routes are found, and what they are.
-/

namespace JoinPlan

/-- No waypoint is given twice, none is the source, and the last one is not the target. -/
def WaypointsFit (source target : TableRef) (via : List TableRef) : Prop :=
  via.Nodup ∧ source ∉ via ∧ via.getLast? ≠ some target

/-- **Only a table that is joined to itself without waypoints has itself next on its route.** -/
theorem isChain_ne_of_waypointsFit {source target : TableRef} {via : List TableRef}
    (h : WaypointsFit source target via) (hother : ¬ (source = target ∧ via = [])) :
    (source :: (via ++ [target])).IsChain (· ≠ ·) := by
  obtain ⟨hnodup, hsource, htarget⟩ := h
  have hdiffer : (source :: via).Pairwise (· ≠ ·) := List.nodup_cons.mpr ⟨hsource, hnodup⟩
  rw [← List.cons_append]
  refine hdiffer.isChain.append (List.isChain_singleton target) fun last hlast next hnext => ?_
  obtain rfl : target = next := by simpa using hnext
  rintro rfl
  cases via with
  | nil => exact hother ⟨by simpa using hlast, rfl⟩
  | cons first rest => exact htarget (by simpa using hlast)

/-- Two relations that agree wherever a third one holds have the same chains among those of it. -/
theorem isChain_congr {α : Type} {R S T : α → α → Prop} (hsame : ∀ a b, T a b → (R a b ↔ S a b))
    {xs : List α} (h : xs.IsChain T) : xs.IsChain R ↔ xs.IsChain S := by
  induction h with
  | nil => simp
  | singleton => simp
  | cons_cons hfirst _ ih =>
    rw [List.isChain_cons_cons, List.isChain_cons_cons, ih, hsame _ _ hfirst]

namespace JoinGraph

variable {P : Type} {graph : JoinGraph P} {source target stop : TableRef}
  {via stops leg route : List TableRef} {legs : List (List TableRef)}

/-! ### Legs -/

/-- A walk of so many hops leads from one table to another, and none of fewer. -/
def Distance (graph : JoinGraph P) (source target : TableRef) (hops : Nat) : Prop :=
  graph.Walk source target hops ∧ ∀ other, graph.Walk source target other → hops ≤ other

/-- The tables lead on from one to another, by as few hops as there can be and past none twice. -/
structure ShortLeg (graph : JoinGraph P) (source target : TableRef) (leg : List TableRef) :
    Prop where
  last : (source :: leg).getLast? = some target
  chain : (source :: leg).IsChain graph.Adjacent
  nodup : (source :: leg).Nodup
  distance : graph.Distance source target leg.length

/-- Each leg leads to the next stop from the one before it, the first one from the source. -/
inductive ShortLegs (graph : JoinGraph P) :
    TableRef → List TableRef → List (List TableRef) → Prop
  | done {source : TableRef} : ShortLegs graph source [] []
  | leg {source stop : TableRef} {leg : List TableRef} {stops : List TableRef}
      {legs : List (List TableRef)} : graph.ShortLeg source stop leg →
      ShortLegs graph stop stops legs → ShortLegs graph source (stop :: stops) (leg :: legs)

/-- **Every stop comes up where its leg ends and the next one begins**, so after the hops of all
legs up to it. -/
theorem ShortLegs.getElem?_flatten (h : graph.ShortLegs source stops legs) {i : Nat}
    (hstop : stops[i]? = some stop) :
    (source :: legs.flatten)[(legs.take (i + 1)).flatten.length]? = some stop := by
  induction h generalizing i with
  | done => cases hstop
  | @leg source first leg stops legs hleg _ ih =>
    -- what comes before the first stop is as long as its leg
    obtain ⟨front, hfront⟩ := List.getLast?_eq_some_iff.mp hleg.last
    have hlength : front.length = leg.length := by
      simpa using (congrArg List.length hfront).symm
    have hsplit : source :: (leg ++ legs.flatten) = front ++ first :: legs.flatten := by
      rw [← List.cons_append, hfront, List.append_assoc, List.singleton_append]
    rw [List.flatten_cons, hsplit, List.take_succ_cons, List.flatten_cons, List.length_append,
      ← hlength, List.getElem?_append_right (Nat.le_add_right _ _), Nat.add_sub_cancel_left]
    cases i with
    | zero => simpa using hstop
    | succ i => exact ih hstop

/-! ### Routes -/

/-- Each table of a route is connected with the next. A table that is joined to itself without
waypoints has a foreign key to itself. -/
def Passable (graph : JoinGraph P) (source target : TableRef) (via : List TableRef) : Prop :=
  if source = target ∧ via = [] then graph.hasSelfLoop source = true
  else (source :: (via ++ [target])).IsChain graph.Connected

theorem routable_iff :
    graph.Routable source target via ↔
      WaypointsFit source target via ∧ (source :: (via ++ [target])).IsChain graph.Reaches :=
  ⟨fun h => ⟨⟨h.nodup, h.not_passed, h.not_last⟩, h.legs⟩,
    fun ⟨⟨hnodup, hsource, htarget⟩, hlegs⟩ => ⟨hnodup, hsource, htarget, hlegs⟩⟩

/-- Where the waypoints fit, there is a leg from each table to the next exactly if they are
connected. -/
theorem isChain_reaches_iff (h : WaypointsFit source target via) :
    (source :: (via ++ [target])).IsChain graph.Reaches ↔ graph.Passable source target via := by
  rw [Passable]
  split_ifs with hself
  · obtain ⟨rfl, rfl⟩ := hself
    rw [List.nil_append, List.isChain_pair, Reaches, if_pos rfl]
  · refine isChain_congr (fun a b hne => ?_) (isChain_ne_of_waypointsFit h hself)
    rw [Reaches, if_neg hne]

/-- The tables of a route that is put together from legs. -/
structure Spliced (graph : JoinGraph P) (source target : TableRef) (via route : List TableRef) :
    Prop where
  head : route.head? = some source
  last : route.getLast? = some target
  chain : route.IsChain graph.Adjacent
  /-- A table that is joined to itself comes up twice. -/
  selfJoin : source = target → via = [] → route = [source, source]
  /-- Any other route consists of the source and of its legs, has as many hops as these together,
  and passes each waypoint where a leg to it ends. -/
  legs : ¬ (source = target ∧ via = []) → ∃ legs, graph.ShortLegs source (via ++ [target]) legs ∧
    route = source :: legs.flatten ∧ route.length - 1 = (legs.map List.length).foldr (· + ·) 0 ∧
    ∀ i stop, via[i]? = some stop → route[(legs.take (i + 1)).flatten.length]? = some stop

/-! ### What is found -/

variable [Penalty P]

theorem shortLeg_of_leg? (hne : source ≠ target) (h : graph.leg? source target = some leg) :
    graph.ShortLeg source target leg := by
  rw [leg?, if_neg hne] at h
  obtain ⟨trail, htrail, rfl⟩ := Option.map_eq_some_iff.mp h
  obtain ⟨hhead, hlast, hnodup, hchain, hlength, hleast⟩ := shortest_of_cheapestTrail? htrail
  have hwalk := walk_of_path hhead hlast hchain
  obtain ⟨rest, hrest⟩ := List.head?_eq_some_iff.mp hhead
  rw [hrest] at hlast hnodup hchain hlength hwalk ⊢
  have hhops : rest.length = trail.cost.hops := by simpa using hlength
  exact ⟨hlast, hchain, hnodup, hwalk, fun other hother => hhops ▸ hleast other hother⟩

theorem shortLegs_of_legs? (hne : (source :: stops).IsChain (· ≠ ·))
    (h : graph.legs? source stops = some route) :
    ∃ legs, graph.ShortLegs source stops legs ∧ route = legs.flatten := by
  induction stops generalizing source route with
  | nil =>
    cases h
    exact ⟨[], .done, rfl⟩
  | cons stop stops ih =>
    obtain ⟨hfirst, hrest⟩ := List.isChain_cons_cons.mp hne
    rw [legs?] at h
    obtain ⟨leg, hleg, h⟩ := Option.bind_eq_some_iff.mp h
    obtain ⟨others, hothers, h⟩ := Option.bind_eq_some_iff.mp h
    cases h
    obtain ⟨legs, hlegs, rfl⟩ := ih hrest hothers
    exact ⟨leg :: legs, .leg (shortLeg_of_leg? hfirst hleg) hlegs, rfl⟩

theorem spliced_of_resolveRoute (h : graph.resolveRoute source target via = .ok route) :
    graph.Spliced source target via route := by
  obtain ⟨rest, rfl, hleads⟩ := path_of_resolveRoute h
  have hfit := (routable_iff.mp (exists_resolveRoute_iff.mp ⟨_, h⟩)).1
  rw [resolveRoute, waypointFault?_eq_none_iff.mpr hfit] at h
  dsimp only at h
  split at h
  · rename_i others hlegs
    cases h
    refine ⟨rfl, ?_, hleads.chain, ?_, fun hother => ?_⟩
    · rw [List.getLast?_cons_of_ne_nil hleads.ne_nil, hleads.last]
    · rintro rfl rfl
      rw [List.nil_append, legs?, leg?, if_pos rfl] at hlegs
      split_ifs at hlegs with hloop
      · cases hlegs
        rfl
      · cases hlegs
    · obtain ⟨legs, hshort, rfl⟩ :=
        shortLegs_of_legs? (isChain_ne_of_waypointsFit hfit hother) hlegs
      refine ⟨legs, hshort, rfl, ?_, fun i stop hstop => hshort.getElem?_flatten ?_⟩
      · rw [List.length_cons, Nat.add_sub_cancel, List.length_flatten, List.sum_eq_foldr]
      · rw [List.getElem?_append_left (List.getElem?_eq_some_iff.mp hstop).1, hstop]
  · cases h

/-- **What comes of a route.** A fault of the waypoints is noticed whatever the graph. Otherwise
there is a route exactly if each table is connected with the next, and the reason given for there
being none names its two ends. A route is spliced from legs of as few hops as there can be. -/
theorem resolveRoute_splices (graph : JoinGraph P) (source target : TableRef)
    (via : List TableRef) :
    ((∃ fault, graph.resolveRoute source target via =
        .error (.invalidWaypoint source target via fault)) ↔
      ¬ via.Nodup ∨ source ∈ via ∨ via.getLast? = some target) ∧
    ((∃ route, graph.resolveRoute source target via = .ok route) ↔
      WaypointsFit source target via ∧ graph.Passable source target via) ∧
    (graph.resolveRoute source target via = .error (.noPath source target) ↔
      WaypointsFit source target via ∧ ¬ graph.Passable source target via) ∧
    ∀ route, graph.resolveRoute source target via = .ok route →
      graph.Spliced source target via route := by
  have hok : (∃ route, graph.resolveRoute source target via = .ok route) ↔
      WaypointsFit source target via ∧ graph.Passable source target via := by
    rw [exists_resolveRoute_iff, routable_iff]
    exact and_congr_right isChain_reaches_iff
  have hfault : ¬ WaypointsFit source target via ↔
      ¬ via.Nodup ∨ source ∈ via ∨ via.getLast? = some target := by
    simp only [WaypointsFit, not_and_or, not_not, ne_eq]
  refine ⟨?_, hok, ?_, fun _ => spliced_of_resolveRoute⟩
  · rw [← hfault, WaypointsFit, ← waypointFault?_eq_none_iff, resolveRoute]
    cases waypointFault? source target via with
    | some fault => simp
    | none => cases graph.legs? source (via ++ [target]) <;> simp
  · by_cases hfit : WaypointsFit source target via
    · rw [and_iff_right hfit] at hok ⊢
      rw [← hok, resolveRoute, waypointFault?_eq_none_iff.mpr hfit]
      cases graph.legs? source (via ++ [target]) <;> simp
    · rw [resolveRoute]
      cases hnone : waypointFault? source target via with
      | some fault => simp [hfit]
      | none => exact absurd (waypointFault?_eq_none_iff.mp hnone) hfit

end JoinGraph

end JoinPlan
