import JoinPlan.Catalog.Restriction
import JoinPlan.Proofs.RoutePath

/-!
# Searches among secluded tables

Some tables of a graph are secluded if no link leads to them from the rest. What is said of the rest
then does not depend on them: a search that starts in the rest sees the same links in the same order
with and without them, so it takes the same steps and finds the same path, whatever decides between
paths that cost the same.

Leaving tables out of a catalog leaves them out of its graph, with the links that remain in their
order.

## Main definitions

* `JoinGraph.without`: a graph without some tables.
* `JoinGraph.Secluded`: no link leads to some tables from the rest of a graph.
* `Search.KeepsOut`: no trail of a search ends at a table of a list.

## Main results

* `JoinGraph.ofCatalog_without`: the graph of a catalog without some tables.
* `Search.run_eq_run`: a search that has room enough does not depend on how much more it has.
* `JoinGraph.Secluded.cheapestTrail?_without`, `JoinGraph.Secluded.resolveRoute_without`: paths and
  routes do not depend on secluded tables.
-/

namespace JoinPlan

variable {P : Type} {ignored : List TableRef}

/-- The link leads neither from nor to a table of a list. -/
def Link.Avoids (link : Link P) (tables : List TableRef) : Prop :=
  link.source ∉ tables ∧ link.target ∉ tables

instance (link : Link P) (tables : List TableRef) : Decidable (link.Avoids tables) :=
  inferInstanceAs (Decidable (_ ∧ _))

/-- The graph without the tables of a list and without any link to or from them. -/
def JoinGraph.without (graph : JoinGraph P) (ignored : List TableRef) : JoinGraph P :=
  ⟨graph.tables.filter (· ∉ ignored), graph.links.filter (·.Avoids ignored)⟩

/-! ### Leaving tables out of a catalog -/

theorem Link.avoids_of_joins {link : Link P} {source target : TableRef}
    (h : link.joins source target = true) :
    link.Avoids ignored ↔ source ∉ ignored ∧ target ∉ ignored := by
  rw [joins, Bool.and_eq_true, decide_eq_true_eq, decide_eq_true_eq] at h
  rw [Avoids, h.1, h.2]

/-- A new penalty leaves the ends of a link alone. -/
theorem filter_map_penalty (source target : TableRef) (penalty : P) (links : List (Link P)) :
    (links.map fun link => if link.joins source target then { link with penalty } else link).filter
        (·.Avoids ignored) =
      (links.filter (·.Avoids ignored)).map fun link =>
        if link.joins source target then { link with penalty } else link := by
  rw [List.filter_map]
  refine congrArg _ (List.filter_congr fun link _ => ?_)
  rw [Function.comp]
  split <;> rfl

/-- A link that is set among those that stay is set as among all. -/
theorem filter_setLink_of_avoids {source target : TableRef}
    (hends : source ∉ ignored ∧ target ∉ ignored) (penalty : P) (links : List (Link P)) :
    (setLink source target penalty links).filter (·.Avoids ignored) =
      setLink source target penalty (links.filter (·.Avoids ignored)) := by
  have hany : (links.filter (·.Avoids ignored)).any (·.joins source target) =
      links.any (·.joins source target) := by
    rw [List.any_filter]
    congr 1
    funext link
    cases hlink : link.joins source target with
    | false => exact Bool.and_false _
    | true => simpa using (Link.avoids_of_joins hlink).mpr hends
  rw [setLink, setLink, hany]
  split
  · exact filter_map_penalty source target penalty links
  · exact List.filter_cons_of_pos (decide_eq_true hends)

/-- A link that is set between others leaves those that stay as they are. -/
theorem filter_setLink_of_not_avoids {source target : TableRef}
    (hends : ¬ (source ∉ ignored ∧ target ∉ ignored)) (penalty : P) (links : List (Link P)) :
    (setLink source target penalty links).filter (·.Avoids ignored) =
      links.filter (·.Avoids ignored) := by
  rw [setLink]
  split
  · rw [filter_map_penalty]
    refine (List.map_congr_left fun link hlink => ?_).trans (List.map_id _)
    have hstays := of_decide_eq_true (List.mem_filter.mp hlink).2
    exact if_neg fun hjoins => hends ((Link.avoids_of_joins hjoins).mp hstays)
  · exact List.filter_cons_of_neg (mt of_decide_eq_true hends)

namespace JoinGraph

theorem contains_without (graph : JoinGraph P) {table : TableRef} (h : table ∉ ignored) :
    (graph.without ignored).contains table = graph.contains table := by
  rw [contains, contains, without, Bool.eq_iff_iff]
  simp [h]

theorem without_connect_of_avoids (graph : JoinGraph P) {source target : TableRef} (penalty : P)
    (hends : source ∉ ignored ∧ target ∉ ignored) :
    (graph.connect source target penalty).without ignored =
      (graph.without ignored).connect source target penalty := by
  rw [connect, connect, contains_without graph hends.1, contains_without graph hends.2]
  split
  · rw [without, filter_setLink_of_avoids hends.symm, filter_setLink_of_avoids hends, without]
  · rfl

theorem without_connect_of_not_avoids (graph : JoinGraph P) {source target : TableRef} (penalty : P)
    (hends : ¬ (source ∉ ignored ∧ target ∉ ignored)) :
    (graph.connect source target penalty).without ignored = graph.without ignored := by
  rw [connect]
  split
  · rw [without, filter_setLink_of_not_avoids (fun h => hends h.symm),
      filter_setLink_of_not_avoids hends, without]
  · rfl

end JoinGraph

theorem Column.linkedTables_without (column : Column) (ignored : List TableRef) :
    (column.without ignored).linkedTables = column.linkedTables.filter (· ∉ ignored) := by
  simp [linkedTables, without, List.filter_map, Function.comp_def]

theorem Table.linkedTables_without (table : Table) (ignored : List TableRef) :
    (table.without ignored).linkedTables = table.linkedTables.filter (· ∉ ignored) := by
  simp [linkedTables, without, List.flatMap_map, List.filter_flatMap, Column.linkedTables_without]

theorem Catalog.tables_without (catalog : Catalog) (ignored : List TableRef) :
    (catalog.without ignored).tables =
      (catalog.tables.filter (·.1 ∉ ignored)).map fun entry =>
        (entry.1, entry.2.without ignored) := by
  simp only [tables, without, List.flatMap_map, List.filter_flatMap, List.map_flatMap]
  refine List.flatMap_congr fun schema _ => ?_
  simp [Schema.without, List.filter_map, Function.comp_def, Table.without]

namespace JoinGraph

theorem keyEnds_without (catalog : Catalog) (ignored : List TableRef) :
    keyEnds (catalog.without ignored) =
      (keyEnds catalog).filter fun ends => ends.1 ∉ ignored ∧ ends.2 ∉ ignored := by
  rw [keyEnds, keyEnds, Catalog.tables_without, List.flatMap_map, List.filter_flatMap]
  induction catalog.tables with
  | nil => rfl
  | cons entry rest ih =>
    obtain ⟨ref, table⟩ := entry
    rw [List.flatMap_cons, ← ih]
    by_cases href : ref ∈ ignored
    · rw [List.filter_cons_of_neg (by simpa using href)]
      simp [href]
    · rw [List.filter_cons_of_pos (by simpa using href), List.flatMap_cons]
      simp [Table.linkedTables_without, List.filter_map, Function.comp_def, href]

/-- **Leaving tables out of a catalog leaves them out of its graph.** -/
theorem ofCatalog_without (penalty : TableRef → TableRef → P) (catalog : Catalog)
    (ignored : List TableRef) :
    ofCatalog penalty (catalog.without ignored) [] =
      (ofCatalog penalty catalog []).without ignored := by
  have hfold : ∀ (ends : List (TableRef × TableRef)) (graph : JoinGraph P),
      (ends.foldl (fun graph e => graph.connect e.1 e.2 (penalty e.1 e.2)) graph).without ignored =
        (ends.filter fun e => e.1 ∉ ignored ∧ e.2 ∉ ignored).foldl
          (fun graph e => graph.connect e.1 e.2 (penalty e.1 e.2)) (graph.without ignored) := by
    intro ends
    induction ends with
    | nil => exact fun _ => rfl
    | cons e rest ih =>
      intro graph
      rw [List.foldl_cons, ih]
      by_cases he : e.1 ∉ ignored ∧ e.2 ∉ ignored
      · rw [List.filter_cons_of_pos (by simpa using he), List.foldl_cons,
          without_connect_of_avoids graph _ he]
      · rw [List.filter_cons_of_neg (by simpa using he), without_connect_of_not_avoids graph _ he]
  rw [ofCatalog, ofCatalog, hfold, keyEnds_without, Catalog.tables_without]
  simp [without, List.filter_map, Function.comp_def]

end JoinGraph

/-! ### Secluded tables -/

namespace JoinGraph

/-- No link leads to the tables of a list from any other table of the graph. -/
def Secluded (graph : JoinGraph P) (tables : List TableRef) : Prop :=
  ∀ a b, graph.Adjacent a b → a ∉ tables → b ∉ tables

namespace Secluded

variable {graph : JoinGraph P} {table : TableRef}

/-- The links out of any other table are the same, in the same order. -/
theorem linksFrom_without (h : graph.Secluded ignored) (htable : table ∉ ignored) :
    (graph.without ignored).linksFrom table = graph.linksFrom table := by
  rw [linksFrom, linksFrom, without, List.filter_filter]
  refine List.filter_congr fun link hlink => ?_
  by_cases hsource : link.source = table
  · have hadjacent := adjacent_iff.mpr ⟨link, hlink, hsource, rfl⟩
    have hstays : link.Avoids ignored :=
      ⟨hsource.symm ▸ htable, h table link.target hadjacent htable⟩
    simp [hsource, hstays]
  · simp [hsource]

theorem hasSelfLoop_without (h : graph.Secluded ignored) (htable : table ∉ ignored) :
    (graph.without ignored).hasSelfLoop table = graph.hasSelfLoop table := by
  rw [Bool.eq_iff_iff, hasSelfLoop_iff, hasSelfLoop_iff, Adjacent, Adjacent, neighbors, neighbors,
    h.linksFrom_without htable]

/-- A path stays where it starts. -/
theorem notMem_of_isChain (h : graph.Secluded ignored) {source : TableRef} {rest : List TableRef}
    (hchain : (source :: rest).IsChain graph.Adjacent) (hsource : source ∉ ignored) :
    ∀ table ∈ source :: rest, table ∉ ignored := by
  induction rest generalizing source with
  | nil => simpa using hsource
  | cons next rest ih =>
    obtain ⟨hadjacent, hrest⟩ := List.isChain_cons_cons.mp hchain
    rw [List.forall_mem_cons]
    exact ⟨hsource, ih hrest (h source next hadjacent hsource)⟩

end Secluded

end JoinGraph

/-! ### Searches -/

namespace Search

variable [Penalty P] {graph : JoinGraph P} {goal : TableRef} {state : State P} {trail : Trail P}

theorem run_of_pop?_eq_none (rounds : Nat) (h : Heap.pop? Trail.lt state.waiting = none) :
    run graph goal rounds state = none := by
  cases rounds with
  | zero => rfl
  | succ rounds => rw [run, h]

/-- **A search that has room enough does not depend on how much more it has.** -/
theorem run_eq_run {rounds more : Nat} (hrounds : room graph state ≤ rounds)
    (hmore : room graph state ≤ more) :
    run graph goal rounds state = run graph goal more state := by
  induction rounds generalizing more state with
  | zero =>
    have hpop : Heap.pop? Trail.lt state.waiting = none := by
      rw [room] at hrounds
      exact Heap.pop?_eq_none_iff.mpr (Array.eq_empty_of_size_eq_zero (by omega))
    rw [run_of_pop?_eq_none 0 hpop, run_of_pop?_eq_none more hpop]
  | succ rounds ih =>
    cases hpop : Heap.pop? Trail.lt state.waiting with
    | none => rw [run_of_pop?_eq_none _ hpop, run_of_pop?_eq_none more hpop]
    | some popped =>
      obtain ⟨first, waiting⟩ := popped
      have hskip := room_skip graph hpop
      obtain ⟨more, rfl⟩ : ∃ rest, more = rest + 1 := ⟨more - 1, by omega⟩
      rw [run, run, hpop]
      dsimp only
      split
      · rfl
      · split
        · exact ih (by omega) (by omega)
        · rename_i hnot
          rw [List.contains_iff_mem] at hnot
          have hsettle := room_settle graph hpop hnot
          exact ih (by omega) (by omega)

/-- No trail that waits ends at a table of a list. -/
def KeepsOut (tables : List TableRef) (state : State P) : Prop :=
  ∀ trail ∈ state.waiting, trail.table ∉ tables

theorem KeepsOut.settle (hsecluded : graph.Secluded ignored) (h : KeepsOut ignored state)
    (htrail : trail.table ∉ ignored) : KeepsOut ignored (settle graph state trail) := by
  intro other hother
  rcases mem_waiting_settle hother with hold | ⟨link, hlink, rfl⟩
  · exact h other hold
  · exact hsecluded _ _ (JoinGraph.adjacent_of_mem_linksFrom hlink) htrail

/-- **A search takes the same steps without secluded tables.** -/
theorem run_without (hsecluded : graph.Secluded ignored) (h : KeepsOut ignored state)
    (rounds : Nat) :
    run (graph.without ignored) goal rounds state = run graph goal rounds state := by
  induction rounds generalizing state with
  | zero => rfl
  | succ rounds ih =>
    cases hpop : Heap.pop? Trail.lt state.waiting with
    | none => rw [run_of_pop?_eq_none _ hpop, run_of_pop?_eq_none _ hpop]
    | some popped =>
      obtain ⟨first, waiting⟩ := popped
      have hfirst : first.table ∉ ignored := h first ((Heap.mem_of_pop? hpop).mpr (.inl rfl))
      have hrest : KeepsOut ignored { state with waiting } :=
        fun other hother => h other ((Heap.mem_of_pop? hpop).mpr (.inr hother))
      have hsame : settle (graph.without ignored) { state with waiting } first =
          settle graph { state with waiting } first := by
        rw [settle, settle, hsecluded.linksFrom_without hfirst]
      rw [run, run, hpop]
      dsimp only
      rw [hsame, ih hrest, ih (hrest.settle hsecluded hfirst)]

end Search

/-! ### Paths and routes -/

namespace JoinGraph.Secluded

variable [Penalty P] {graph : JoinGraph P} {source target : TableRef}

theorem cheapestTrail?_without (h : graph.Secluded ignored) (hsource : source ∉ ignored)
    (htarget : target ∉ ignored) :
    (graph.without ignored).cheapestTrail? source target = graph.cheapestTrail? source target := by
  have hinitial : Search.KeepsOut ignored (Search.State.initial source : Search.State P) := by
    intro trail htrail
    obtain rfl := Search.mem_waiting_initial.mp htrail
    exact hsource
  rw [cheapestTrail?, cheapestTrail?, contains_without graph hsource,
    contains_without graph htarget]
  split
  · -- the smaller graph asks for fewer rounds, which no longer matters with room enough
    have hroom := Search.room_initial (graph.without ignored) source
    have hfewer : (graph.without ignored).links.length ≤ graph.links.length :=
      List.length_filter_le _ _
    rw [Search.run_eq_run hroom (hroom.trans (Nat.succ_le_succ hfewer)),
      Search.run_without h hinitial]
  · rfl

theorem leg?_without (h : graph.Secluded ignored) (hsource : source ∉ ignored)
    (htarget : target ∉ ignored) :
    (graph.without ignored).leg? source target = graph.leg? source target := by
  rw [leg?, leg?, h.hasSelfLoop_without hsource, h.cheapestTrail?_without hsource htarget]

theorem legs?_without (h : graph.Secluded ignored) {stops : List TableRef}
    (hsource : source ∉ ignored) (hstops : ∀ stop ∈ stops, stop ∉ ignored) :
    (graph.without ignored).legs? source stops = graph.legs? source stops := by
  induction stops generalizing source with
  | nil => rfl
  | cons stop rest ih =>
    obtain ⟨hstop, hrest⟩ := List.forall_mem_cons.mp hstops
    rw [legs?, legs?, h.leg?_without hsource hstop, ih hstop hrest]

/-- **Routes do not depend on secluded tables**, nor do the reasons why there is none. -/
theorem resolveRoute_without (h : graph.Secluded ignored) {via : List TableRef}
    (hsource : source ∉ ignored) (htarget : target ∉ ignored)
    (hvia : ∀ stop ∈ via, stop ∉ ignored) :
    (graph.without ignored).resolveRoute source target via =
      graph.resolveRoute source target via := by
  have hstops : ∀ stop ∈ via ++ [target], stop ∉ ignored := by
    rw [List.forall_mem_append]
    exact ⟨hvia, by simpa using htarget⟩
  rw [resolveRoute, resolveRoute, h.legs?_without hsource hstops]

end JoinGraph.Secluded

end JoinPlan
