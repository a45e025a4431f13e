import JoinPlan.Proofs.SearchInvariant
import Mathlib.Data.List.Nodup

/-!
# Cheapest paths have the fewest hops

A cheapest path is found exactly when there is a walk between two tables of the graph, and no walk
has fewer hops. It passes no table twice.

Penalties decide between paths of equally many hops and never against the number of hops. Nothing
is asked of them, not even that their comparison is transitive.

## Main definitions

* `JoinGraph.Connected`: both tables are in the graph, and there is a walk from one to the other.
* `Trail.Shortest`: a trail between two tables with as few hops as there can be.

## Main results

* `JoinGraph.shortest_of_shortestPath`, `JoinGraph.shortestPath_isOk_iff`,
  `JoinGraph.shortestPath_eq_error_iff`: in any graph.
* `JoinGraph.shortestPath_ofCatalog`: in the graph of a catalog, together.
-/

namespace JoinPlan

variable {P : Type}

/-- A trail between two tables that passes none twice and has as few hops as there can be. -/
structure Trail.Shortest (graph : JoinGraph P) (source target : TableRef) (trail : Trail P) :
    Prop where
  head : trail.path.head? = some source
  last : trail.path.getLast? = some target
  nodup : trail.path.Nodup
  chain : trail.path.IsChain graph.Adjacent
  /-- There is one table more than there are hops. -/
  length : trail.path.length = trail.cost.hops + 1
  least : ∀ hops, graph.Walk source target hops → trail.cost.hops ≤ hops

namespace JoinGraph

/-- Both tables are in the graph, and a walk leads from the first to the second. -/
def Connected (graph : JoinGraph P) (source target : TableRef) : Prop :=
  graph.contains source = true ∧ graph.contains target = true ∧
    ∃ hops, graph.Walk source target hops

variable [Penalty P] {graph : JoinGraph P} {source target : TableRef}

theorem run_of_cheapestTrail? {trail : Trail P}
    (h : graph.cheapestTrail? source target = some trail) :
    Search.run graph target (graph.links.length + 1) (Search.State.initial source) =
      some trail := by
  rw [cheapestTrail?] at h
  split at h
  · exact h
  · cases h

theorem shortest_of_cheapestTrail? {trail : Trail P}
    (h : graph.cheapestTrail? source target = some trail) : trail.Shortest graph source target := by
  obtain ⟨hleads, rfl, hnodup, hleast⟩ := Search.run_eq_some
    (Search.underway_initial graph source target) (run_of_cheapestTrail? h)
  exact ⟨hleads.head?_path, trail.getLast?_path, by rwa [Trail.path, List.nodup_reverse],
    hleads.isChain_path, hleads.length_path, hleast⟩

/-- There is a cheapest trail exactly where there is a walk. -/
theorem cheapestTrail?_isSome_iff :
    (graph.cheapestTrail? source target).isSome = true ↔ graph.Connected source target := by
  rw [cheapestTrail?, Connected]
  split
  · rename_i hin
    rw [Bool.and_eq_true] at hin
    simp only [hin, true_and]
    cases hrun : Search.run graph target (graph.links.length + 1) (Search.State.initial source) with
    | none =>
      have hnone := Search.run_eq_none (Search.underway_initial graph source target)
        (Search.room_initial graph source) hrun
      simpa using hnone
    | some trail =>
      obtain ⟨hleads, rfl, -⟩ :=
        Search.run_eq_some (Search.underway_initial graph source target) hrun
      simpa using ⟨_, hleads.walk⟩
  · rename_i hout
    rw [Bool.and_eq_true] at hout
    simp only [Option.isSome_none, Bool.false_eq_true, false_iff]
    exact fun ⟨hs, ht, _⟩ => hout ⟨hs, ht⟩

theorem shortestPath_eq_ok_iff {trail : Trail P} :
    graph.shortestPath source target = .ok trail ↔
      graph.cheapestTrail? source target = some trail := by
  rw [shortestPath]
  split <;> simp_all

theorem shortest_of_shortestPath {trail : Trail P}
    (h : graph.shortestPath source target = .ok trail) : trail.Shortest graph source target :=
  shortest_of_cheapestTrail? (shortestPath_eq_ok_iff.mp h)

theorem shortestPath_isOk_iff :
    (∃ trail, graph.shortestPath source target = .ok trail) ↔ graph.Connected source target := by
  simp only [shortestPath_eq_ok_iff, ← Option.isSome_iff_exists, cheapestTrail?_isSome_iff]

theorem shortestPath_eq_error_iff {e : QueryError} :
    graph.shortestPath source target = .error e ↔
      ¬ graph.Connected source target ∧ e = .noPath source target := by
  rw [← cheapestTrail?_isSome_iff]
  rw [shortestPath]
  cases graph.cheapestTrail? source target with
  | none => simp [eq_comm]
  | some trail => simp

/-- **Cheapest paths between tables of a catalog**, some of which may be left out: there is one
exactly where there is a walk, the only error is that there is none, and whatever the penalties, no
walk has fewer hops. -/
theorem shortestPath_ofCatalog (penalty : TableRef → TableRef → P) (catalog : Catalog)
    (ignored : List TableRef) (source target : TableRef) :
    ((∃ trail, (ofCatalog penalty catalog ignored).shortestPath source target = .ok trail) ↔
      (ofCatalog penalty catalog ignored).Connected source target) ∧
    ((ofCatalog penalty catalog ignored).shortestPath source target =
        .error (.noPath source target) ↔
      ¬ (ofCatalog penalty catalog ignored).Connected source target) ∧
    ∀ trail, (ofCatalog penalty catalog ignored).shortestPath source target = .ok trail →
      trail.Shortest (ofCatalog penalty catalog ignored) source target := by
  refine ⟨shortestPath_isOk_iff, ?_, fun _ => shortest_of_shortestPath⟩
  rw [shortestPath_eq_error_iff, and_iff_left rfl]

end JoinGraph

end JoinPlan
