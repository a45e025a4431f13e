import JoinPlan.Proofs.SearchOrder

/-!
# What holds while a search runs

A search settles tables in the order of their hops from the start. Two invariants say why.

`Sound` is about what waits in the heap: each trail is a way through the graph that starts at the
start, has passed through settled tables only, and through none of them twice.

`Thorough` is about what does not wait: whatever a walk from the start can come to next is settled,
or waits with no more hops than that walk has made. So the first trail to come out of the heap has
no more hops than any walk to a table that is not yet settled.

Both speak of hops alone. Penalties decide between trails of equally many hops, and neither
invariant needs to know how: any comparison of penalties will do, for hops alone are an order in
which searches go.

## Main definitions

* `Trail.Leads`: a trail is a way through the graph from its start.
* `Search.Sound`, `Search.Thorough`: the invariants.
* `Search.room`: how many trails can still come out of the heap.

## Main results

* `Search.thorough_iff`: to be thorough is to be exhaustive in the order of hops.
* `Search.Sound.settle`, `Search.Underway.settle`, `Search.room_settle`: what settling keeps.
* `Search.run_eq_some`, `Search.run_eq_none`: what a whole search finds.
-/

namespace JoinPlan

variable {P : Type}

theorem Cost.hops_le_of_not_lt [Penalty P] {a b : Cost P} (h : a.lt b = false) :
    b.hops ≤ a.hops := by
  simp only [Cost.lt, Bool.or_eq_false_iff, decide_eq_false_iff_not] at h
  omega

/-- The comparison of costs never contradicts that of hops, whatever the penalties are. -/
theorem Cost.guides_hops [Penalty P] : Guides fun a b : Cost P => a.hops ≤ b.hops where
  trans := Nat.le_trans
  of_lt := hops_le_of_lt
  of_not_lt := hops_le_of_not_lt
  grows := fun _ _ => Nat.le_succ _
  extend := fun _ h => Nat.succ_le_succ h

namespace Trail

/-- The first trail has no more hops. -/
def FewerHops (a b : Trail P) : Prop :=
  a.cost.hops ≤ b.cost.hops

/-- The trail is a way through a graph from a table on, and its cost counts its links. -/
structure Leads (graph : JoinGraph P) (source : TableRef) (trail : Trail P) : Prop where
  chain : (trail.table :: trail.behind).IsChain fun later earlier => graph.Adjacent earlier later
  last : (trail.table :: trail.behind).getLast? = some source
  hops : trail.cost.hops = trail.behind.length

/-- The tables of a trail in the order in which they are passed. -/
theorem Leads.isChain_path {graph : JoinGraph P} {source : TableRef} {trail : Trail P}
    (h : trail.Leads graph source) : trail.path.IsChain graph.Adjacent := by
  rw [path, List.isChain_reverse]
  exact h.chain

theorem Leads.head?_path {graph : JoinGraph P} {source : TableRef} {trail : Trail P}
    (h : trail.Leads graph source) : trail.path.head? = some source := by
  rw [path, List.head?_reverse, h.last]

theorem getLast?_path (trail : Trail P) : trail.path.getLast? = some trail.table := by
  rw [path, List.getLast?_reverse, List.head?_cons]

theorem Leads.length_path {graph : JoinGraph P} {source : TableRef} {trail : Trail P}
    (h : trail.Leads graph source) : trail.path.length = trail.cost.hops + 1 := by
  rw [path, List.length_reverse, List.length_cons, h.hops]

/-- A trail is a walk of as many hops as it costs. -/
theorem Leads.walk {graph : JoinGraph P} {source : TableRef} {trail : Trail P}
    (h : trail.Leads graph source) : graph.Walk source trail.table trail.cost.hops := by
  have hwalk := JoinGraph.walk_of_path h.head?_path trail.getLast?_path h.isChain_path
  rwa [h.length_path, Nat.add_sub_cancel] at hwalk

variable [Penalty P]

theorem follows_fewerHops : Heap.Follows (lt (P := P)) FewerHops :=
  Cost.guides_hops.trails

theorem leads_start (graph : JoinGraph P) (source : TableRef) :
    (start source : Trail P).Leads graph source :=
  ⟨List.isChain_singleton _, rfl, rfl⟩

theorem leads_follow {graph : JoinGraph P} {source : TableRef} {trail : Trail P}
    (h : trail.Leads graph source) {link : Link P} (hlink : link ∈ graph.linksFrom trail.table) :
    (trail.follow link).Leads graph source where
  chain := List.isChain_cons_cons.mpr ⟨JoinGraph.adjacent_of_mem_linksFrom hlink, h.chain⟩
  last := by rw [Trail.follow, List.getLast?_cons_cons, h.last]
  hops := by simp [Trail.follow, h.hops]

end Trail

namespace Search

variable [Penalty P] {graph : JoinGraph P} {source : TableRef} {state : State P}
  {trail : Trail P} {waiting : Array (Trail P)}

/-! ### What waits -/

/-- Every trail that waits is a way from the start through settled tables, none of them passed
twice, and the heap is in order. -/
structure Sound (graph : JoinGraph P) (source : TableRef) (state : State P) : Prop where
  leads : ∀ trail ∈ state.waiting, trail.Leads graph source
  nodup : ∀ trail ∈ state.waiting, trail.behind.Nodup
  settled : ∀ trail ∈ state.waiting, ∀ table ∈ trail.behind, table ∈ state.settled
  ordered : Heap.Ordered Trail.FewerHops state.waiting

theorem sound_initial (graph : JoinGraph P) (source : TableRef) :
    Sound graph source (State.initial source) where
  leads := by
    rintro trail htrail
    obtain rfl := mem_waiting_initial.mp htrail
    exact Trail.leads_start graph source
  nodup := by
    rintro trail htrail
    obtain rfl := mem_waiting_initial.mp htrail
    exact List.nodup_nil
  settled := by
    rintro trail htrail table htable
    obtain rfl := mem_waiting_initial.mp htrail
    cases htable
  ordered := Heap.ordered_singleton _ _

theorem size_waiting_relax_le (trail : Trail P) (state : State P) (link : Link P) :
    (relax trail state link).waiting.size ≤ state.waiting.size + 1 := by
  rcases relax_cases trail state link with h | h <;> rw [h]
  · exact Nat.le_succ _
  · exact (Heap.size_push _ _ _).le

/-- The trail that comes out of the heap, and what it leaves behind. -/
theorem Sound.pop (h : Sound graph source state)
    (hpop : Heap.pop? Trail.lt state.waiting = some (trail, waiting)) :
    trail ∈ state.waiting ∧ Sound graph source { state with waiting } := by
  have hmem : ∀ other, other ∈ waiting → other ∈ state.waiting :=
    fun other hother => (Heap.mem_of_pop? hpop).mpr (.inr hother)
  exact ⟨(Heap.mem_of_pop? hpop).mpr (.inl rfl),
    fun other hother => h.leads other (hmem other hother),
    fun other hother => h.nodup other (hmem other hother),
    fun other hother => h.settled other (hmem other hother),
    Heap.ordered_of_pop? Trail.follows_fewerHops h.ordered hpop⟩

theorem Sound.settle (h : Sound graph source state) (hleads : trail.Leads graph source)
    (hnodup : (trail.table :: trail.behind).Nodup)
    (hsettled : ∀ table ∈ trail.behind, table ∈ state.settled) :
    Sound graph source (settle graph state trail) := by
  refine ⟨?_, ?_, ?_, ordered_settle Cost.guides_hops h.ordered⟩ <;>
    intro other hother <;> rcases mem_waiting_settle hother with hold | ⟨link, hlink, rfl⟩
  · exact h.leads other hold
  · exact Trail.leads_follow hleads hlink
  · exact h.nodup other hold
  · exact hnodup
  · rw [settled_settle]
    exact fun table htable => List.mem_cons_of_mem _ (h.settled other hold table htable)
  · rw [settled_settle]
    exact List.forall_mem_cons.mpr
      ⟨List.mem_cons_self, fun table htable => List.mem_cons_of_mem _ (hsettled table htable)⟩

/-! ### What does not wait -/

/-- The table is settled, or waits with no more than so many hops. -/
def Covers (state : State P) (table : TableRef) (hops : Nat) : Prop :=
  table ∈ state.settled ∨
    ∃ trail ∈ state.waiting, trail.table = table ∧ trail.cost.hops ≤ hops

/-- Every cost that was noted is that of a table which is settled or waits. -/
def CoversKnown (state : State P) : Prop :=
  ∀ table cost, state.best.lookup table = some cost → Covers state table cost.hops

/-- Whatever a walk comes to when it leaves the settled tables is covered. -/
structure Thorough (graph : JoinGraph P) (source : TableRef) (state : State P) : Prop where
  start : Covers state source 0
  known : CoversKnown state
  frontier : ∀ near far hops, graph.Walk source near hops → near ∈ state.settled →
    graph.Adjacent near far → Covers state far (hops + 1)

/-- To be thorough is to be exhaustive in the order of hops. -/
theorem thorough_iff :
    Thorough graph source state ↔ Exhaustive (fun a b => a.hops ≤ b.hops) graph source state := by
  refine ⟨fun h => ⟨h.start, h.known, ?_⟩, fun h => ⟨h.start, h.known, ?_⟩⟩
  · intro near cost hwalk hnear link hlink
    exact h.frontier near link.target cost.hops hwalk.walk hnear
      (JoinGraph.adjacent_of_mem_linksFrom hlink)
  · intro near far hops hwalk hnear hadj
    obtain ⟨cost, hpriced, rfl⟩ := hwalk.exists_priced
    obtain ⟨link, hlink, rfl⟩ := List.mem_map.mp hadj
    exact h.frontier near cost hpriced hnear link hlink

theorem thorough_initial (graph : JoinGraph P) (source : TableRef) :
    Thorough graph source (State.initial source) :=
  thorough_iff.mpr (exhaustive_initial Cost.guides_hops graph source)

/-- **A walk to a table that is not settled is no shorter than some trail that waits.** -/
theorem Thorough.exists_waiting (h : Thorough graph source state) {table : TableRef} {hops : Nat}
    (hwalk : graph.Walk source table hops) (hnot : table ∉ state.settled) :
    ∃ trail ∈ state.waiting, trail.cost.hops ≤ hops := by
  obtain ⟨cost, hpriced, rfl⟩ := hwalk.exists_priced
  exact (thorough_iff.mp h).exists_waiting Cost.guides_hops hpriced hnot

/-! ### Whole searches -/

/-- How many trails can still come out of the heap: those that wait, and one for every link whose
source is not settled. -/
def room (graph : JoinGraph P) (state : State P) : Nat :=
  state.waiting.size + graph.links.countP (·.source ∉ state.settled)

theorem room_initial (graph : JoinGraph P) (source : TableRef) :
    room graph (State.initial source) ≤ graph.links.length + 1 := by
  rw [Nat.add_comm]
  exact Nat.add_le_add_left List.countP_le_length 1

theorem size_waiting_foldl_relax_le (trail : Trail P) (links : List (Link P)) (state : State P) :
    (links.foldl (relax trail) state).waiting.size ≤ state.waiting.size + links.length := by
  induction links generalizing state with
  | nil => exact Nat.le_refl _
  | cons link links ih =>
    have h₁ := ih (relax trail state link)
    have h₂ := size_waiting_relax_le trail state link
    simp only [List.foldl_cons, List.length_cons]
    omega

theorem room_skip (graph : JoinGraph P)
    (hpop : Heap.pop? Trail.lt state.waiting = some (trail, waiting)) :
    room graph { state with waiting } + 1 = room graph state := by
  have := Heap.size_of_pop? hpop
  simp only [room]
  omega

omit [Penalty P] in
/-- The links out of a table no longer count once it is settled. -/
theorem length_linksFrom_add_countP (graph : JoinGraph P) {table : TableRef}
    {settled : List TableRef} (hnot : table ∉ settled) :
    (graph.linksFrom table).length + graph.links.countP (·.source ∉ table :: settled) =
      graph.links.countP (·.source ∉ settled) := by
  rw [JoinGraph.linksFrom, ← List.countP_eq_length_filter]
  induction graph.links with
  | nil => rfl
  | cons link links ih =>
    simp only [List.countP_cons]
    by_cases hsame : link.source = table
    · simp [hsame, hnot] at ih ⊢
      omega
    · simp [hsame] at ih ⊢
      omega

/-- Settling a table uses up its links. -/
theorem room_settle (graph : JoinGraph P)
    (hpop : Heap.pop? Trail.lt state.waiting = some (trail, waiting))
    (hnot : trail.table ∉ state.settled) :
    room graph (settle graph { state with waiting } trail) < room graph state := by
  have hsize := Heap.size_of_pop? hpop
  have hfold := size_waiting_foldl_relax_le trail (graph.linksFrom trail.table)
    { waiting, best := state.best, settled := trail.table :: state.settled }
  have hlinks := length_linksFrom_add_countP graph hnot
  simp only [room, settled_settle] at hlinks ⊢
  simp only [settle] at hfold ⊢
  omega

/-- A search that goes on: both invariants hold, and the goal has not come out. -/
structure Underway (graph : JoinGraph P) (source goal : TableRef) (state : State P) : Prop where
  sound : Sound graph source state
  thorough : Thorough graph source state
  goal : goal ∉ state.settled

theorem underway_initial (graph : JoinGraph P) (source goal : TableRef) :
    Underway graph source goal (State.initial source) :=
  ⟨sound_initial graph source, thorough_initial graph source, List.not_mem_nil⟩

/-- A search that goes on is pending in the order of hops. -/
theorem Underway.pending {goal : TableRef} (h : Underway graph source goal state) :
    Pending (fun a b => a.hops ≤ b.hops) graph source goal state :=
  ⟨thorough_iff.mp h.thorough, h.sound.ordered, h.goal⟩

theorem Underway.skip {goal : TableRef} (h : Underway graph source goal state)
    (hpop : Heap.pop? Trail.lt state.waiting = some (trail, waiting))
    (hin : trail.table ∈ state.settled) : Underway graph source goal { state with waiting } := by
  have hpending := h.pending.skip Cost.guides_hops hpop hin
  exact ⟨(h.sound.pop hpop).2, thorough_iff.mpr hpending.exhaustive, hpending.goal⟩

theorem Underway.settle {goal : TableRef} (h : Underway graph source goal state)
    (hpop : Heap.pop? Trail.lt state.waiting = some (trail, waiting))
    (hother : trail.table ≠ goal) (hnot : trail.table ∉ state.settled) :
    Underway graph source goal (settle graph { state with waiting } trail) := by
  obtain ⟨hmem, hrest⟩ := h.sound.pop hpop
  have hnodup : (trail.table :: trail.behind).Nodup :=
    List.nodup_cons.mpr ⟨fun hin => hnot (h.sound.settled _ hmem _ hin), h.sound.nodup _ hmem⟩
  have hpending := h.pending.settle Cost.guides_hops hpop hother hnot
  exact ⟨hrest.settle (h.sound.leads _ hmem) hnodup (h.sound.settled _ hmem),
    thorough_iff.mpr hpending.exhaustive, hpending.goal⟩

/-- What a search finds is a way to the goal that comes to no table twice, with as few hops as
there can be. -/
theorem run_eq_some {goal : TableRef} {rounds : Nat} (hu : Underway graph source goal state)
    (h : run graph goal rounds state = some trail) :
    trail.Leads graph source ∧ trail.table = goal ∧ (trail.table :: trail.behind).Nodup ∧
      ∀ hops, graph.Walk source goal hops → trail.cost.hops ≤ hops := by
  obtain ⟨last, waiting, hlast, hpop, hfound⟩ := exists_of_run Underway.skip Underway.settle hu h
  obtain ⟨hmem, -⟩ := hlast.sound.pop hpop
  refine ⟨hlast.sound.leads _ hmem, hfound, List.nodup_cons.mpr ⟨fun hin => ?_, ?_⟩, ?_⟩
  · exact hlast.goal (hfound ▸ hlast.sound.settled _ hmem _ hin)
  · exact hlast.sound.nodup _ hmem
  · intro hops hwalk
    obtain ⟨cost, hpriced, rfl⟩ := hwalk.exists_priced
    exact hu.pending.le_of_run Cost.guides_hops h hpriced

/-- A search with room enough that finds nothing has seen all that can be reached. -/
theorem run_eq_none {goal : TableRef} {rounds : Nat} (hu : Underway graph source goal state)
    (hrounds : room graph state ≤ rounds) (h : run graph goal rounds state = none) (hops : Nat) :
    ¬ graph.Walk source goal hops := by
  induction rounds generalizing state with
  | zero =>
    intro hwalk
    obtain ⟨trail, hmem, -⟩ := hu.thorough.exists_waiting hwalk hu.goal
    have hpos : 0 < state.waiting.size := Array.size_pos_of_mem hmem
    simp only [room] at hrounds
    omega
  | succ rounds ih =>
    rw [run] at h
    split at h
    · rename_i hpop
      intro hwalk
      obtain ⟨trail, hmem, -⟩ := hu.thorough.exists_waiting hwalk hu.goal
      rw [Heap.pop?_eq_none_iff.mp hpop] at hmem
      simp at hmem
    · rename_i first waiting hpop
      dsimp only at h
      split at h
      · cases h
      · rename_i hother
        split at h
        · rename_i hin
          have hroom := room_skip graph hpop
          exact ih (hu.skip hpop (List.contains_iff_mem.mp hin)) (by omega) h
        · rename_i hnot
          rw [List.contains_iff_mem] at hnot
          have hroom := room_settle graph hpop hnot
          exact ih (hu.settle hpop hother hnot) (by omega) h

end Search

end JoinPlan
