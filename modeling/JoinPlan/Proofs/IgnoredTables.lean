import JoinPlan.Proofs.SecludedGraph

/-!
# Ignored tables

Tables can be ignored in two ways. A graph is built without them, though the keys of the whole
catalog are gone through, or they are dropped from the catalog first, together with every key to or
from them. It comes to the same, link by link and in the same order, for a key to or from a table
that is not in the graph never adds a link or changes one.

The order is what matters: it decides between paths that cost the same.

## Main results

* `JoinGraph.foldl_connect_filter`: keys of tables outside the graph add nothing to it.
* `JoinGraph.ofCatalog_without_ignoring`: tables can be ignored in two steps.
* `JoinGraph.ofCatalog_ignoring`: the two ways agree.
-/

namespace JoinPlan

namespace JoinGraph

variable {P : Type} {graph : JoinGraph P} {source target : TableRef}

theorem connect_of_notMem (penalty : P)
    (h : ¬ (source ∈ graph.tables ∧ target ∈ graph.tables)) :
    graph.connect source target penalty = graph := by
  rw [connect, if_neg]
  simpa [contains] using h

/-- Keys that are left out make no difference if one of their ends is not in the graph. -/
theorem foldl_connect_filter (penalty : TableRef → TableRef → P)
    {keep : TableRef × TableRef → Bool} (ends : List (TableRef × TableRef))
    (h : ∀ e, keep e = false → ¬ (e.1 ∈ graph.tables ∧ e.2 ∈ graph.tables)) :
    (ends.filter keep).foldl (fun graph e => graph.connect e.1 e.2 (penalty e.1 e.2)) graph =
      ends.foldl (fun graph e => graph.connect e.1 e.2 (penalty e.1 e.2)) graph := by
  induction ends generalizing graph with
  | nil => rfl
  | cons e rest ih =>
    cases hkeep : keep e with
    | true =>
      rw [List.filter_cons_of_pos hkeep, List.foldl_cons, List.foldl_cons]
      exact ih (by simpa using h)
    | false =>
      rw [List.filter_cons_of_neg (by simp [hkeep]), ih h, List.foldl_cons,
        connect_of_notMem _ (h e hkeep)]

/-- Some tables can be dropped from the catalog and others left out of the graph. -/
theorem ofCatalog_without_ignoring (penalty : TableRef → TableRef → P) (catalog : Catalog)
    (dropped ignored : List TableRef) :
    ofCatalog penalty (catalog.without dropped) ignored =
      ofCatalog penalty catalog (dropped ++ ignored) := by
  have htables : ((catalog.without dropped).tables.map (·.1)).filter (!ignored.contains ·) =
      (catalog.tables.map (·.1)).filter (!(dropped ++ ignored).contains ·) := by
    rw [Catalog.tables_without]
    simp [List.filter_map, Function.comp_def, Bool.and_comm]
  rw [ofCatalog, ofCatalog, htables, keyEnds_without]
  refine foldl_connect_filter penalty _ fun e hdropped hin => ?_
  simp only [List.mem_filter, Bool.not_eq_true', List.contains_eq_mem, decide_eq_false_iff_not,
    List.mem_append, not_or] at hin
  exact of_decide_eq_false hdropped ⟨hin.1.2.1, hin.2.2.1⟩

/-- **The two ways of ignoring tables agree.** The graph is the same, with its tables and its links
in the same order, so whatever is looked up in it or found by a search is the same. -/
theorem ofCatalog_ignoring (penalty : TableRef → TableRef → P) (catalog : Catalog)
    (ignored : List TableRef) :
    ofCatalog penalty catalog ignored = ofCatalog penalty (catalog.without ignored) [] := by
  rw [ofCatalog_without_ignoring, List.append_nil]

end JoinGraph

end JoinPlan
