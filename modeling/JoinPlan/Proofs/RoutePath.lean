import JoinPlan.Graph.Route
import JoinPlan.Proofs.ShortestPath

/-!
# Routes are paths

A route through given tables is a chain of adjacent tables from its source to its target, for each
of its legs is one, and a leg starts where the one before it ends. It has at least one link, also
where a table is joined to itself.

## Main results

* `JoinGraph.path_of_leg?`, `JoinGraph.path_of_legs?`: what one leg adds, and what all of them add.
* `JoinGraph.path_of_resolveRoute`: a whole route.
-/

namespace JoinPlan

namespace JoinGraph

variable {P : Type} {graph : JoinGraph P} {source target : TableRef}

/-- The tables lead from a table, which is not among them, to another one by at least one link. -/
structure LeadsOn (graph : JoinGraph P) (source target : TableRef) (rest : List TableRef) :
    Prop where
  ne_nil : rest ≠ []
  chain : (source :: rest).IsChain graph.Adjacent
  last : rest.getLast? = some target

/-- Where one path ends another can begin. -/
theorem LeadsOn.append {via : TableRef} {first second : List TableRef}
    (h₁ : graph.LeadsOn source via first) (h₂ : graph.LeadsOn via target second) :
    graph.LeadsOn source target (first ++ second) where
  ne_nil := by simp [h₁.ne_nil]
  chain := by
    rw [← List.cons_append]
    refine h₁.chain.append (List.isChain_cons.mp h₂.chain).2 fun x hx y hy => ?_
    have hlast : (source :: first).getLast? = some via := by
      rw [List.getLast?_cons, h₁.last, Option.getD_some]
    rw [hlast] at hx
    cases hx
    exact (List.isChain_cons.mp h₂.chain).1 y hy
  last := by rw [List.getLast?_append, h₂.last, Option.some_or]

variable [Penalty P]

theorem path_of_leg? {leg : List TableRef} (h : graph.leg? source target = some leg) :
    graph.LeadsOn source target leg := by
  rw [leg?] at h
  split at h
  · rename_i hsame
    split at h
    · rename_i hloop
      subst hsame
      cases h
      exact ⟨List.cons_ne_nil _ _, List.isChain_pair.mpr (hasSelfLoop_iff.mp hloop), rfl⟩
    · cases h
  · rename_i hne
    obtain ⟨trail, htrail, rfl⟩ := Option.map_eq_some_iff.mp h
    have hs := shortest_of_cheapestTrail? htrail
    obtain ⟨rest, hrest⟩ : ∃ rest, trail.path = source :: rest := by
      simpa [List.head?_eq_some_iff] using hs.head
    have hlast := hs.last
    rw [hrest] at hlast ⊢
    -- a path of one table would end where it starts
    have hnil : rest ≠ [] := by
      rintro rfl
      exact hne (by simpa using hlast)
    refine ⟨hnil, hrest ▸ hs.chain, ?_⟩
    rwa [List.getLast?_cons_of_ne_nil hnil] at hlast

theorem path_of_legs? {stops rest : List TableRef} (hstops : stops.getLast? = some target)
    (h : graph.legs? source stops = some rest) : graph.LeadsOn source target rest := by
  induction stops generalizing source rest with
  | nil => cases hstops
  | cons stop stops ih =>
    rw [legs?] at h
    obtain ⟨leg, hleg, h⟩ := Option.bind_eq_some_iff.mp h
    obtain ⟨others, hothers, h⟩ := Option.bind_eq_some_iff.mp h
    cases h
    have hfirst := path_of_leg? hleg
    cases stops with
    | nil =>
      cases hstops
      cases hothers
      rwa [List.append_nil]
    | cons next stops =>
      exact hfirst.append (ih (by simpa using hstops) hothers)

/-- **A route is a path** from its source to its target. -/
theorem path_of_resolveRoute {via route : List TableRef}
    (h : graph.resolveRoute source target via = .ok route) :
    ∃ rest, route = source :: rest ∧ graph.LeadsOn source target rest := by
  rw [resolveRoute] at h
  split at h
  · cases h
  · split at h
    · rename_i rest hlegs
      cases h
      exact ⟨rest, rfl, path_of_legs? (by simp) hlegs⟩
    · cases h

end JoinGraph

end JoinPlan
