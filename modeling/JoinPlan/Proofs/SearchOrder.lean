import JoinPlan.Graph.Search
import JoinPlan.Proofs.Adjacency
import JoinPlan.Proofs.HeapOrder

/-!
# Searches settle tables in the order of their costs

The trail that comes out of the heap costs no more than any walk to its table, if that table is not
settled yet: whatever a walk comes to when it leaves the settled tables waits in the heap, at no
greater cost than that of the walk so far.

What "no greater" means is open. It can be any preorder of costs that the comparison of costs never
contradicts and that goes on along links (`Cost.Guides`). The number of hops is one whatever the
penalties are; the comparison itself is another if penalties obey laws.

## Main definitions

* `JoinGraph.PricedWalk`: a walk along links, with its cost.
* `Cost.Guides`: an order of costs in which searches go.
* `Search.Exhaustive`: what a search has yet to settle waits for it.

## Main results

* `Search.Exhaustive.settle`, `Search.Exhaustive.skip`: what the steps of a search keep.
* `Search.exists_of_run`, `Search.forall_of_run`: what is kept holds when the goal comes out, and
  of the trail that is found.
* `Search.Pending.le_of_run`: the trail found costs no more than any walk.
-/

namespace JoinPlan

variable {P : Type} [Penalty P]

namespace JoinGraph

/-- Links lead from one table to another, one after the other, at a cost that adds up from the first
link to the last. -/
inductive PricedWalk (graph : JoinGraph P) (source : TableRef) : TableRef → Cost P → Prop
  | stay : PricedWalk graph source source Cost.zero
  | step {via : TableRef} {cost : Cost P} {link : Link P} :
      PricedWalk graph source via cost → link ∈ graph.linksFrom via →
      PricedWalk graph source link.target (cost.extend link.penalty)

variable {graph : JoinGraph P} {source table : TableRef}

theorem PricedWalk.walk {cost : Cost P} (h : graph.PricedWalk source table cost) :
    graph.Walk source table cost.hops := by
  induction h with
  | stay => exact .stay
  | step _ hlink ih => exact ih.step (adjacent_of_mem_linksFrom hlink)

/-- Every walk has a cost. -/
theorem Walk.exists_priced {hops : Nat} (h : graph.Walk source table hops) :
    ∃ cost, graph.PricedWalk source table cost ∧ cost.hops = hops := by
  induction h with
  | stay => exact ⟨_, .stay, rfl⟩
  | step _ hadj ih =>
    obtain ⟨cost, hpriced, rfl⟩ := ih
    obtain ⟨link, hlink, rfl⟩ := List.mem_map.mp hadj
    exact ⟨_, hpriced.step hlink, rfl⟩

end JoinGraph

/-- A preorder of costs that their comparison never contradicts and that goes on along links: a
path with one more link costs no less, and of two paths that go on along one link the dearer one
stays the dearer. -/
structure Cost.Guides (le : Cost P → Cost P → Prop) : Prop extends Heap.Follows Cost.lt le where
  grows : ∀ cost penalty, le cost (cost.extend penalty)
  extend : ∀ {a b} (penalty), le a b → le (a.extend penalty) (b.extend penalty)

/-- Trails are compared by their costs. -/
theorem Cost.Guides.trails {le : Cost P → Cost P → Prop} (h : Guides le) :
    Heap.Follows (Trail.lt (P := P)) fun a b => le a.cost b.cost where
  trans := h.trans
  of_lt := h.of_lt
  of_not_lt := h.of_not_lt

namespace Search

variable {le : Cost P → Cost P → Prop} {graph : JoinGraph P} {source goal : TableRef}
  {state : State P} {trail : Trail P} {waiting : Array (Trail P)}

/-! ### One step -/

/-- Relaxing only adds one trail, or does nothing. -/
theorem relax_cases (trail : Trail P) (state : State P) (link : Link P) :
    relax trail state link = state ∨
      relax trail state link =
        { state with
          waiting := Heap.push Trail.lt state.waiting (trail.follow link)
          best := (link.target, (trail.follow link).cost) :: state.best } := by
  simp only [relax]
  split
  · exact .inr rfl
  · exact .inl rfl

@[simp] theorem settled_relax (trail : Trail P) (state : State P) (link : Link P) :
    (relax trail state link).settled = state.settled := by
  rcases relax_cases trail state link with h | h <;> rw [h]

/-- What relaxing puts into the heap goes on along the link. -/
theorem mem_waiting_relax {link : Link P} {other : Trail P}
    (h : other ∈ (relax trail state link).waiting) :
    other ∈ state.waiting ∨ other = trail.follow link := by
  rcases relax_cases trail state link with heq | heq
  · exact .inl (heq ▸ h)
  · exact (Heap.mem_push _).mp (heq ▸ h)

/-- What each link that is followed keeps, settling a table keeps. -/
theorem settle_induction {I : State P → Prop}
    (h : I { state with settled := trail.table :: state.settled })
    (hrelax : ∀ state, I state → ∀ link ∈ graph.linksFrom trail.table,
      I (relax trail state link)) :
    I (settle graph state trail) :=
  List.foldlRecOn _ _ h hrelax

@[simp] theorem settled_settle (graph : JoinGraph P) (state : State P) (trail : Trail P) :
    (settle graph state trail).settled = trail.table :: state.settled :=
  settle_induction (I := fun after => after.settled = trail.table :: state.settled) rfl
    fun after ih link _ => (settled_relax trail after link).trans ih

/-- **What settling puts into the heap goes on along a link** from the table that is settled. -/
theorem mem_waiting_settle {other : Trail P} (h : other ∈ (settle graph state trail).waiting) :
    other ∈ state.waiting ∨ ∃ link ∈ graph.linksFrom trail.table, other = trail.follow link := by
  revert h
  refine settle_induction (I := fun after => other ∈ after.waiting → _) .inl ?_
  intro after ih link hlink hother
  exact (mem_waiting_relax hother).elim ih fun heq => .inr ⟨link, hlink, heq⟩

/-- The heap stays in order when a table is settled. -/
theorem ordered_settle (hle : Cost.Guides le)
    (h : Heap.Ordered (fun a b => le a.cost b.cost) state.waiting) :
    Heap.Ordered (fun a b => le a.cost b.cost) (settle graph state trail).waiting := by
  refine settle_induction (I := fun after : State P => Heap.Ordered _ after.waiting) h ?_
  intro after ih link _
  rcases relax_cases trail after link with heq | heq <;> rw [heq]
  · exact ih
  · exact Heap.ordered_push hle.trails ih _

@[simp] theorem mem_waiting_initial {other : Trail P} :
    other ∈ (State.initial source).waiting ↔ other = Trail.start source := by
  simp [State.initial]

/-! ### What waits for the search -/

/-- The table is settled, or waits at no greater cost. -/
def Within (le : Cost P → Cost P → Prop) (state : State P) (table : TableRef) (cost : Cost P) :
    Prop :=
  table ∈ state.settled ∨ ∃ trail ∈ state.waiting, trail.table = table ∧ le trail.cost cost

/-- Every cost that was noted is that of a table which is settled or waits. -/
def KnownWithin (le : Cost P → Cost P → Prop) (state : State P) : Prop :=
  ∀ table cost, state.best.lookup table = some cost → Within le state table cost

/-- Whatever a walk comes to when it leaves the settled tables waits at no greater cost. -/
structure Exhaustive (le : Cost P → Cost P → Prop) (graph : JoinGraph P) (source : TableRef)
    (state : State P) : Prop where
  start : Within le state source Cost.zero
  known : KnownWithin le state
  frontier : ∀ near cost, graph.PricedWalk source near cost → near ∈ state.settled →
    ∀ link ∈ graph.linksFrom near, Within le state link.target (cost.extend link.penalty)

theorem Within.mono (hle : Cost.Guides le) {table : TableRef} {cost dearer : Cost P}
    (h : Within le state table cost) (hcost : le cost dearer) : Within le state table dearer :=
  h.imp_right fun ⟨trail, hmem, htable, hle'⟩ => ⟨trail, hmem, htable, hle.trans hle' hcost⟩

/-- What is settled or waits stays so when a trail comes out of the heap and its table is
settled. -/
theorem Within.pop {table : TableRef} {cost : Cost P} (h : Within le state table cost)
    (hpop : Heap.pop? Trail.lt state.waiting = some (trail, waiting))
    {best : List (TableRef × Cost P)} {settled : List TableRef}
    (hsub : trail.table :: state.settled ⊆ settled) :
    Within le { waiting, best, settled } table cost := by
  rcases h with hin | ⟨other, hmem, htable, hcost⟩
  · exact .inl (hsub (List.mem_cons_of_mem _ hin))
  · rcases (Heap.mem_of_pop? hpop).mp hmem with rfl | hrest
    · exact .inl (hsub (htable ▸ List.mem_cons_self))
    · exact .inr ⟨other, hrest, htable, hcost⟩

theorem Within.relax {table : TableRef} {cost : Cost P} (h : Within le state table cost)
    (trail : Trail P) (link : Link P) : Within le (relax trail state link) table cost := by
  rcases relax_cases trail state link with heq | heq <;> rw [heq]
  · exact h
  · exact h.imp_right fun ⟨other, hmem, hother⟩ =>
      ⟨other, (Heap.mem_push _).mpr (.inl hmem), hother⟩

theorem Within.foldl_relax {table : TableRef} {cost : Cost P} (h : Within le state table cost)
    (trail : Trail P) (links : List (Link P)) :
    Within le (links.foldl (Search.relax trail) state) table cost :=
  List.foldlRecOn (motive := fun after => Within le after table cost) links _ h
    fun _ ih link _ => ih.relax trail link

/-- After a link has been followed, what is at its end is settled or waits. -/
theorem KnownWithin.relax_target (hle : Cost.Guides le) (h : KnownWithin le state)
    (trail : Trail P) (link : Link P) :
    Within le (relax trail state link) link.target (trail.follow link).cost := by
  simp only [Search.relax]
  split
  · exact .inr ⟨trail.follow link, (Heap.mem_push _).mpr (.inr rfl), rfl, hle.refl _⟩
  · rename_i hworse
    -- a cost was noted that the new one does not improve on
    rw [State.improves] at hworse
    split at hworse
    · rename_i known hlookup
      exact (h link.target known hlookup).mono hle (hle.of_not_lt (by simpa using hworse))
    · simp at hworse

theorem KnownWithin.relax (hle : Cost.Guides le) (h : KnownWithin le state) (trail : Trail P)
    (link : Link P) : KnownWithin le (relax trail state link) := by
  have htarget := h.relax_target hle trail link
  intro table cost hlookup
  have hold := fun hl => (h table cost hl).relax trail link
  rcases relax_cases trail state link with heq | heq
  · rw [heq] at hlookup
    exact hold hlookup
  · rw [heq] at hlookup
    simp only [List.lookup_cons] at hlookup
    split at hlookup
    · rename_i hsame
      obtain rfl : table = link.target := by simpa using hsame
      cases hlookup
      exact htarget
    · exact hold hlookup

theorem KnownWithin.foldl_relax (hle : Cost.Guides le) (trail : Trail P) (links : List (Link P))
    (h : KnownWithin le state) :
    KnownWithin le (links.foldl (Search.relax trail) state) ∧
      ∀ link ∈ links,
        Within le (links.foldl (Search.relax trail) state) link.target
          (trail.follow link).cost := by
  induction links generalizing state with
  | nil => exact ⟨h, fun _ hlink => by cases hlink⟩
  | cons link links ih =>
    obtain ⟨hknown, hlinks⟩ := ih (h.relax hle trail link)
    refine ⟨hknown, fun other hother => ?_⟩
    rcases List.mem_cons.mp hother with rfl | hin
    · exact (h.relax_target hle trail other).foldl_relax trail links
    · exact hlinks other hin

theorem exhaustive_initial (hle : Cost.Guides le) (graph : JoinGraph P) (source : TableRef) :
    Exhaustive le graph source (State.initial source) := by
  have hstart : Within le (State.initial source) source Cost.zero :=
    .inr ⟨Trail.start source, mem_waiting_initial.mpr rfl, rfl, hle.refl _⟩
  refine ⟨hstart, fun table cost hlookup => ?_, fun near cost _ hnear => ?_⟩
  · simp only [State.initial, List.lookup_cons, List.lookup_nil] at hlookup
    split at hlookup
    · rename_i heq
      obtain rfl : table = source := by simpa using heq
      cases hlookup
      exact hstart
    · cases hlookup
  · cases hnear

namespace Exhaustive

/-- **A walk to a table that is not settled costs no less than some trail that waits.** -/
theorem exists_waiting (hle : Cost.Guides le) (h : Exhaustive le graph source state)
    {table : TableRef} {cost : Cost P} (hwalk : graph.PricedWalk source table cost)
    (hnot : table ∉ state.settled) : ∃ trail ∈ state.waiting, le trail.cost cost := by
  induction hwalk with
  | stay =>
    rcases h.start with hin | ⟨trail, hmem, -, hcost⟩
    · exact absurd hin hnot
    · exact ⟨trail, hmem, hcost⟩
  | @step via cost link hwalk hlink ih =>
    by_cases hvia : via ∈ state.settled
    · rcases h.frontier via cost hwalk hvia link hlink with hin | ⟨trail, hmem, -, hcost⟩
      · exact absurd hin hnot
      · exact ⟨trail, hmem, hcost⟩
    · obtain ⟨trail, hmem, hcost⟩ := ih hvia
      exact ⟨trail, hmem, hle.trans hcost (hle.grows _ _)⟩

/-- The trail that comes out first costs no more than any walk to a table not yet settled. -/
theorem le_of_pop (hle : Cost.Guides le) (h : Exhaustive le graph source state)
    (hordered : Heap.Ordered (fun a b => le a.cost b.cost) state.waiting)
    (hpop : Heap.pop? Trail.lt state.waiting = some (trail, waiting)) {table : TableRef}
    (hnot : table ∉ state.settled) {cost : Cost P} (hwalk : graph.PricedWalk source table cost) :
    le trail.cost cost := by
  obtain ⟨other, hmem, hcost⟩ := h.exists_waiting hle hwalk hnot
  exact hle.trans (Heap.le_of_pop? hle.trails hordered hpop hmem) hcost

theorem settle (hle : Cost.Guides le) (h : Exhaustive le graph source state)
    (hordered : Heap.Ordered (fun a b => le a.cost b.cost) state.waiting)
    (hpop : Heap.pop? Trail.lt state.waiting = some (trail, waiting))
    (hnot : trail.table ∉ state.settled) :
    Exhaustive le graph source (settle graph { state with waiting } trail) := by
  have hkept : ∀ {table cost}, Within le state table cost →
      Within le (Search.settle graph { state with waiting } trail) table cost := fun h =>
    (h.pop hpop (List.Subset.refl _)).foldl_relax trail _
  have hstart : KnownWithin le ⟨waiting, state.best, trail.table :: state.settled⟩ :=
    fun table cost hlookup => (h.known table cost hlookup).pop hpop (List.Subset.refl _)
  have hknown := hstart.foldl_relax hle trail (graph.linksFrom trail.table)
  refine ⟨hkept h.start, hknown.1, fun near cost hwalk hnear link hlink => ?_⟩
  rw [settled_settle] at hnear
  rcases List.mem_cons.mp hnear with rfl | hnear
  · -- the table just settled: no walk to it costs less than its trail
    have hleast := h.le_of_pop hle hordered hpop hnot hwalk
    exact (hknown.2 link hlink).mono hle (hle.extend _ hleast)
  · exact hkept (h.frontier near cost hwalk hnear link hlink)

theorem skip (h : Exhaustive le graph source state)
    (hpop : Heap.pop? Trail.lt state.waiting = some (trail, waiting))
    (hin : trail.table ∈ state.settled) : Exhaustive le graph source { state with waiting } := by
  have hsub : trail.table :: state.settled ⊆ state.settled := by
    simp [hin]
  refine ⟨h.start.pop hpop hsub, fun table cost hlookup => ?_, ?_⟩
  · exact (h.known table cost hlookup).pop hpop hsub
  · exact fun near cost hwalk hnear link hlink =>
      (h.frontier near cost hwalk hnear link hlink).pop hpop hsub

end Exhaustive

/-! ### Whole searches -/

/-- **What holds when a search starts, and is kept as it goes on,** holds when the goal comes
out. -/
theorem exists_of_run {I : State P → Prop} {rounds : Nat}
    (hskip : ∀ {state trail waiting}, I state →
      Heap.pop? Trail.lt state.waiting = some (trail, waiting) → trail.table ∈ state.settled →
      I { state with waiting })
    (hsettle : ∀ {state trail waiting}, I state →
      Heap.pop? Trail.lt state.waiting = some (trail, waiting) → trail.table ≠ goal →
      trail.table ∉ state.settled → I (settle graph { state with waiting } trail))
    (h : I state) (hrun : run graph goal rounds state = some trail) :
    ∃ last waiting, I last ∧ Heap.pop? Trail.lt last.waiting = some (trail, waiting) ∧
      trail.table = goal := by
  induction rounds generalizing state with
  | zero => cases hrun
  | succ rounds ih =>
    rw [run] at hrun
    split at hrun
    · cases hrun
    · rename_i first waiting hpop
      dsimp only at hrun
      split at hrun
      · -- the goal comes out
        rename_i hfound
        cases hrun
        exact ⟨state, waiting, h, hpop, hfound⟩
      · rename_i hother
        split at hrun
        · rename_i hin
          exact ih (hskip h hpop (List.contains_iff_mem.mp hin)) hrun
        · rename_i hnot
          rw [List.contains_iff_mem] at hnot
          exact ih (hsettle h hpop hother hnot) hrun

/-- **What goes on along links holds of the trail that a search finds**, if it holds of those that
wait. -/
theorem forall_of_run {Holds : Trail P → Prop} {rounds : Nat}
    (hfollow : ∀ {trail}, Holds trail → ∀ link ∈ graph.linksFrom trail.table,
      Holds (trail.follow link))
    (h : ∀ other ∈ state.waiting, Holds other) (hrun : run graph goal rounds state = some trail) :
    Holds trail := by
  have hrest : ∀ {state : State P} {trail waiting}, (∀ other ∈ state.waiting, Holds other) →
      Heap.pop? Trail.lt state.waiting = some (trail, waiting) →
      Holds trail ∧ ∀ other ∈ waiting, Holds other := fun h hpop =>
    ⟨h _ ((Heap.mem_of_pop? hpop).mpr (.inl rfl)),
      fun other hother => h other ((Heap.mem_of_pop? hpop).mpr (.inr hother))⟩
  obtain ⟨last, waiting, hlast, hpop, -⟩ :=
    exists_of_run (I := fun state => ∀ other ∈ state.waiting, Holds other)
      (fun h hpop _ => (hrest h hpop).2)
      (fun h hpop _ _ other hother => by
        obtain ⟨htrail, hwaiting⟩ := hrest h hpop
        rcases mem_waiting_settle hother with hold | ⟨link, hlink, rfl⟩
        · exact hwaiting other hold
        · exact hfollow htrail link hlink)
      h hrun
  exact (hrest hlast hpop).1

/-- A search that goes on: what it has yet to settle waits in order, its goal too. -/
structure Pending (le : Cost P → Cost P → Prop) (graph : JoinGraph P) (source goal : TableRef)
    (state : State P) : Prop where
  exhaustive : Exhaustive le graph source state
  ordered : Heap.Ordered (fun a b => le a.cost b.cost) state.waiting
  goal : goal ∉ state.settled

theorem pending_initial (hle : Cost.Guides le) (graph : JoinGraph P) (source goal : TableRef) :
    Pending le graph source goal (State.initial source) where
  exhaustive := exhaustive_initial hle graph source
  ordered := Heap.ordered_singleton _ _
  goal := List.not_mem_nil

namespace Pending

theorem skip (hle : Cost.Guides le) (h : Pending le graph source goal state)
    (hpop : Heap.pop? Trail.lt state.waiting = some (trail, waiting))
    (hin : trail.table ∈ state.settled) : Pending le graph source goal { state with waiting } where
  exhaustive := h.exhaustive.skip hpop hin
  ordered := Heap.ordered_of_pop? hle.trails h.ordered hpop
  goal := h.goal

theorem settle (hle : Cost.Guides le) (h : Pending le graph source goal state)
    (hpop : Heap.pop? Trail.lt state.waiting = some (trail, waiting))
    (hother : trail.table ≠ goal) (hnot : trail.table ∉ state.settled) :
    Pending le graph source goal (settle graph { state with waiting } trail) where
  exhaustive := h.exhaustive.settle hle h.ordered hpop hnot
  ordered := ordered_settle hle (Heap.ordered_of_pop? hle.trails h.ordered hpop)
  goal := by
    rw [settled_settle, List.mem_cons, not_or]
    exact ⟨fun heq => hother heq.symm, h.goal⟩

/-- **The trail that a search finds costs no more than any walk to its goal.** -/
theorem le_of_run (hle : Cost.Guides le) {rounds : Nat}
    (h : Pending le graph source goal state) (hrun : run graph goal rounds state = some trail)
    {cost : Cost P} (hwalk : graph.PricedWalk source goal cost) : le trail.cost cost := by
  obtain ⟨last, waiting, hlast, hpop, -⟩ := exists_of_run (skip hle) (settle hle) h hrun
  exact hlast.exhaustive.le_of_pop hle hlast.ordered hpop hlast.goal hwalk

end Pending

end Search

end JoinPlan
