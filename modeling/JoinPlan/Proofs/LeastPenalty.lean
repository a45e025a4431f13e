import JoinPlan.Proofs.ListedColumns
import JoinPlan.Proofs.SearchOrder
import JoinPlan.Proofs.ShortestPath

/-!
# Among paths of equally many hops, the cheapest path has the least penalty

Where penalties are compared by a total preorder, and adding one to two sums keeps the sums in
order, the comparison of costs is itself an order in which searches go. So no walk of as many hops
as the cheapest path has a smaller penalty, however often the search improves on a table that
waits.

The penalty of a path is what adding up the penalties of its links from left to right gives. Sums
may be rounded, so how they are added up matters, and nothing but monotonicity is asked of the
addition. Doubles from zero to infinity keep to these laws, and their sums stay among them; among
all doubles are some that compare with none.

## Main definitions

* `JoinGraph.Simple`: no two links lead from one table to one other.
* `LawfulPenalty`: penalties are in order, and adding keeps the order.
* `JoinGraph.penaltyAlong?`: the penalties along a path, added up from left to right.
* `Trail.Tallies`: a trail costs what the penalties along it add up to.

## Main results

* `Cost.guides_noDearer`: searches go in the order of costs.
* `JoinGraph.PricedWalk.append_chain`: a chain of adjacent tables is a walk at a cost.
* `JoinGraph.tallies_of_cheapestTrail?`: the cheapest path costs what it says.
* `JoinGraph.noDearer_of_cheapestTrail?`: no walk costs less.
* `JoinGraph.shortestPath_leastPenalty`: both, for walks of as many hops in the graph of a catalog.
-/

namespace JoinPlan

variable {P : Type}

/-! ### Links between two tables -/

/-- The tables that a link joins. -/
def Link.ends (link : Link P) : TableRef × TableRef :=
  (link.source, link.target)

theorem Link.joins_iff {link : Link P} {source target : TableRef} :
    link.joins source target = true ↔ link.ends = (source, target) := by
  simp [joins, ends]

/-- Setting a link leaves the ends of the links alone, or adds new ones. -/
theorem ends_setLink (source target : TableRef) (penalty : P) (links : List (Link P)) :
    (setLink source target penalty links).map (·.ends) =
      if (source, target) ∈ links.map (·.ends) then links.map (·.ends)
      else (source, target) :: links.map (·.ends) := by
  have hany : links.any (·.joins source target) = true ↔
      (source, target) ∈ links.map (·.ends) := by
    simp only [List.any_eq_true, Link.joins_iff, List.mem_map]
  rw [setLink]
  by_cases hin : (source, target) ∈ links.map (·.ends)
  · rw [if_pos (hany.mpr hin), if_pos hin, List.map_map]
    refine List.map_congr_left fun link _ => ?_
    rw [Function.comp]
    split <;> rfl
  · rw [if_neg (mt hany.mp hin), if_neg hin]
    rfl

namespace JoinGraph

variable {graph : JoinGraph P} {source target via : TableRef}

/-- No two links lead from one table to one other. -/
def Simple (graph : JoinGraph P) : Prop :=
  (graph.links.map (·.ends)).Nodup

theorem nodup_ends_setLink {links : List (Link P)} (h : (links.map (·.ends)).Nodup)
    (source target : TableRef) (penalty : P) :
    ((setLink source target penalty links).map (·.ends)).Nodup := by
  rw [ends_setLink]
  split
  · exact h
  · rename_i hnew
    exact List.nodup_cons.mpr ⟨hnew, h⟩

theorem Simple.connect (h : graph.Simple) (source target : TableRef) (penalty : P) :
    (graph.connect source target penalty).Simple := by
  rw [JoinGraph.connect]
  split
  · exact nodup_ends_setLink (nodup_ends_setLink h _ _ _) _ _ _
  · exact h

/-- However many keys two tables share, one link leads from the one to the other. -/
theorem simple_ofCatalog (penalty : TableRef → TableRef → P) (catalog : Catalog)
    (ignored : List TableRef) : (ofCatalog penalty catalog ignored).Simple :=
  List.foldlRecOn (motive := Simple) _ _ List.nodup_nil
    fun _ h _ _ => h.connect _ _ _

/-- The penalty of the link from one table to another, if there is one. -/
def penalty? (graph : JoinGraph P) (source target : TableRef) : Option P :=
  (graph.links.find? (·.ends = (source, target))).map (·.penalty)

theorem Simple.penalty?_of_mem (h : graph.Simple) {link : Link P} (hlink : link ∈ graph.links) :
    graph.penalty? link.source link.target = some link.penalty := by
  have hfind : graph.links.find? (·.ends = (link.source, link.target)) = some link :=
    find?_eq_some_of_nodup h hlink
  rw [penalty?, hfind, Option.map_some]

theorem exists_link_of_adjacent (h : graph.Adjacent source target) :
    ∃ link ∈ graph.linksFrom source, link.target = target ∧
      graph.penalty? source target = some link.penalty := by
  obtain ⟨other, hother, hsource, htarget⟩ := adjacent_iff.mp h
  have hsome : (graph.links.find? (·.ends = (source, target))).isSome = true :=
    List.find?_isSome.mpr ⟨other, hother, by simp [Link.ends, hsource, htarget]⟩
  obtain ⟨link, hfind⟩ := Option.isSome_iff_exists.mp hsome
  obtain ⟨hsource', htarget'⟩ : link.source = source ∧ link.target = target := by
    simpa [Link.ends] using List.find?_some hfind
  refine ⟨link, ?_, htarget', by rw [penalty?, hfind, Option.map_some]⟩
  exact List.mem_filter.mpr ⟨List.mem_of_find?_eq_some hfind, decide_eq_true hsource'⟩

end JoinGraph

variable [Penalty P]

/-! ### The order of costs -/

/-- Penalties are compared by a total preorder, and adding a penalty to two sums keeps them in
order. Two penalties of which neither is smaller need not be the same. -/
class LawfulPenalty (P : Type) [Penalty P] : Prop where
  asymm : ∀ {a b : P}, Penalty.lt a b = true → Penalty.lt b a = false
  trans : ∀ {a b c : P}, Penalty.lt b a = false → Penalty.lt c b = false → Penalty.lt c a = false
  add : ∀ {a b : P} (p : P), Penalty.lt b a = false →
    Penalty.lt (Penalty.add b p) (Penalty.add a p) = false

instance : LawfulPenalty Nat where
  asymm := by simp only [Penalty.lt, decide_eq_true_eq, decide_eq_false_iff_not]; omega
  trans := by simp only [Penalty.lt, decide_eq_false_iff_not]; omega
  add := by simp only [Penalty.lt, Penalty.add, decide_eq_false_iff_not]; omega

namespace Cost

/-- The second cost is not smaller than the first. -/
def NoDearer (a b : Cost P) : Prop :=
  b.lt a = false

theorem noDearer_iff {a b : Cost P} :
    a.NoDearer b ↔
      a.hops < b.hops ∨ a.hops = b.hops ∧ Penalty.lt b.penalty a.penalty = false := by
  rw [NoDearer, lt, Bool.or_eq_false_iff, Bool.and_eq_false_iff, decide_eq_false_iff_not,
    decide_eq_false_iff_not, eq_comm (a := a.hops)]
  by_cases hsame : b.hops = a.hops
  · simp [hsame]
  · simp only [hsame, not_false_eq_true, true_or, and_true, false_and, or_false]
    omega

/-- **Searches go in the order of costs** if penalties are lawful. -/
theorem guides_noDearer [LawfulPenalty P] : Guides (NoDearer (P := P)) where
  trans := by
    intro a b c hab hbc
    rw [noDearer_iff] at hab hbc ⊢
    rcases hab with hab | ⟨hab, hpen⟩
    · omega
    · rcases hbc with hbc | ⟨hbc, hpen'⟩
      · omega
      · exact .inr ⟨hab.trans hbc, LawfulPenalty.trans hpen hpen'⟩
  of_lt := by
    intro a b h
    simp only [lt, Bool.or_eq_true, decide_eq_true_eq, Bool.and_eq_true] at h
    rw [noDearer_iff]
    exact h.imp_right (And.imp_right LawfulPenalty.asymm)
  of_not_lt := id
  grows := fun cost penalty => noDearer_iff.mpr (.inl (Nat.lt_succ_self _))
  extend := by
    intro a b penalty h
    rw [noDearer_iff] at h ⊢
    exact h.imp Nat.succ_lt_succ (And.imp (congrArg (· + 1)) (LawfulPenalty.add penalty))

end Cost

/-! ### The penalty of a path -/

namespace JoinGraph

variable {graph : JoinGraph P} {source target via : TableRef}

/-- The penalties along a path, added from left to right to a sum, if links join its tables. -/
def penaltyFrom? (graph : JoinGraph P) (sum : P) : List TableRef → Option P
  | source :: target :: rest =>
    (graph.penalty? source target).bind fun penalty =>
      graph.penaltyFrom? (Penalty.add sum penalty) (target :: rest)
  | _ => some sum

/-- The penalties along a path, added up from left to right. -/
def penaltyAlong? (graph : JoinGraph P) (path : List TableRef) : Option P :=
  graph.penaltyFrom? Penalty.zero path

/-- One more table adds one more penalty. -/
theorem penaltyFrom?_concat {path : List TableRef} {sum total penalty : P}
    (hlast : path.getLast? = some via) (hpath : graph.penaltyFrom? sum path = some total)
    (hlink : graph.penalty? via target = some penalty) :
    graph.penaltyFrom? sum (path ++ [target]) = some (Penalty.add total penalty) := by
  induction path generalizing sum with
  | nil => cases hlast
  | cons first rest ih =>
    cases rest with
    | nil =>
      obtain rfl : first = via := by simpa using hlast
      obtain rfl : sum = total := by simpa [penaltyFrom?] using hpath
      simp [penaltyFrom?, hlink]
    | cons second rest =>
      obtain ⟨step, hstep, hrest⟩ := Option.bind_eq_some_iff.mp hpath
      rw [List.getLast?_cons_cons] at hlast
      simp only [List.cons_append, penaltyFrom?, hstep, Option.bind_some]
      exact ih hlast hrest

/-- **A chain of adjacent tables is a walk**, and its cost is what adding up gives. -/
theorem PricedWalk.append_chain {cost : Cost P} {rest : List TableRef}
    (h : graph.PricedWalk source via cost) (hchain : (via :: rest).IsChain graph.Adjacent) :
    ∃ total, graph.penaltyFrom? cost.penalty (via :: rest) = some total ∧
      graph.PricedWalk source ((via :: rest).getLast (List.cons_ne_nil _ _))
        ⟨cost.hops + rest.length, total⟩ := by
  induction rest generalizing via cost with
  | nil => exact ⟨cost.penalty, rfl, h⟩
  | cons next rest ih =>
    obtain ⟨hadjacent, hrest⟩ := List.isChain_cons_cons.mp hchain
    obtain ⟨link, hlink, rfl, hpenalty⟩ := exists_link_of_adjacent hadjacent
    obtain ⟨total, htotal, hwalk⟩ := ih (h.step hlink) hrest
    refine ⟨total, ?_, ?_⟩
    · rw [penaltyFrom?, hpenalty, Option.bind_some]
      exact htotal
    · rw [List.getLast_cons (List.cons_ne_nil _ _), List.length_cons, Nat.add_comm rest.length,
        ← Nat.add_assoc]
      exact hwalk

theorem exists_pricedWalk_of_isChain {walk : List TableRef} (hhead : walk.head? = some source)
    (hlast : walk.getLast? = some target) (hchain : walk.IsChain graph.Adjacent) :
    ∃ total, graph.penaltyAlong? walk = some total ∧
      graph.PricedWalk source target ⟨walk.length - 1, total⟩ := by
  obtain ⟨rest, rfl⟩ := List.head?_eq_some_iff.mp hhead
  obtain ⟨total, htotal, hwalk⟩ := PricedWalk.stay.append_chain hchain
  rw [List.getLast?_eq_some_getLast (List.cons_ne_nil _ _), Option.some_inj] at hlast
  rw [hlast] at hwalk
  refine ⟨total, htotal, ?_⟩
  simpa using hwalk

end JoinGraph

/-! ### The cheapest path -/

namespace Trail

/-- The penalty of the trail is what the penalties along it add up to. -/
def Tallies (graph : JoinGraph P) (trail : Trail P) : Prop :=
  graph.penaltyAlong? trail.path = some trail.cost.penalty

variable {graph : JoinGraph P} {trail : Trail P}

theorem path_follow (trail : Trail P) (link : Link P) :
    (trail.follow link).path = trail.path ++ [link.target] := by
  simp [path, follow]

theorem Tallies.follow (hsimple : graph.Simple) (h : trail.Tallies graph) {link : Link P}
    (hlink : link ∈ graph.linksFrom trail.table) : (trail.follow link).Tallies graph := by
  obtain ⟨hmem, hsource⟩ := List.mem_filter.mp hlink
  have hpenalty := hsimple.penalty?_of_mem hmem
  rw [of_decide_eq_true hsource] at hpenalty
  rw [Tallies, JoinGraph.penaltyAlong?, path_follow]
  exact JoinGraph.penaltyFrom?_concat trail.getLast?_path h hpenalty

end Trail

namespace JoinGraph

variable {graph : JoinGraph P} {source target : TableRef} {trail : Trail P}

/-- The cheapest path costs what the penalties along it add up to. -/
theorem tallies_of_cheapestTrail? (hsimple : graph.Simple)
    (h : graph.cheapestTrail? source target = some trail) : trail.Tallies graph := by
  refine Search.forall_of_run (fun h _ hlink => h.follow hsimple hlink) ?_ (run_of_cheapestTrail? h)
  intro other hother
  obtain rfl := Search.mem_waiting_initial.mp hother
  rfl

/-- No walk costs less than the cheapest path. -/
theorem noDearer_of_cheapestTrail? [LawfulPenalty P]
    (h : graph.cheapestTrail? source target = some trail) {cost : Cost P}
    (hwalk : graph.PricedWalk source target cost) : trail.cost.NoDearer cost :=
  (Search.pending_initial Cost.guides_noDearer graph source target).le_of_run
    Cost.guides_noDearer (run_of_cheapestTrail? h) hwalk

/-- **The cheapest path has the least penalty** of all walks of as many hops in the graph of a
catalog, where the penalties of a path add up from left to right. -/
theorem shortestPath_leastPenalty [LawfulPenalty P] (penalty : TableRef → TableRef → P)
    (catalog : Catalog) (ignored : List TableRef) {source target : TableRef} {trail : Trail P}
    (h : (ofCatalog penalty catalog ignored).shortestPath source target = .ok trail) :
    (ofCatalog penalty catalog ignored).penaltyAlong? trail.path = some trail.cost.penalty ∧
    ∀ walk : List TableRef, walk.head? = some source → walk.getLast? = some target →
      walk.IsChain (ofCatalog penalty catalog ignored).Adjacent →
      walk.length = trail.path.length →
      ∃ total, (ofCatalog penalty catalog ignored).penaltyAlong? walk = some total ∧
        Penalty.lt total trail.cost.penalty = false := by
  rw [shortestPath_eq_ok_iff] at h
  refine ⟨tallies_of_cheapestTrail? (simple_ofCatalog penalty catalog ignored) h, ?_⟩
  intro walk hhead hlast hchain hlength
  obtain ⟨total, htotal, hwalk⟩ := exists_pricedWalk_of_isChain hhead hlast hchain
  rw [hlength, (shortest_of_cheapestTrail? h).length, Nat.add_sub_cancel] at hwalk
  refine ⟨total, htotal, ?_⟩
  rcases Cost.noDearer_iff.mp (noDearer_of_cheapestTrail? h hwalk) with hfewer | ⟨-, hpenalty⟩
  · exact absurd hfewer (Nat.lt_irrefl _)
  · exact hpenalty

end JoinGraph

/-- Bills and receipts, each of which names a customer and an invoice. -/
def ledger : Catalog :=
  .assemble
    [⟨⟨"ledger", "customers"⟩, "id", "integer", .number, false, true⟩,
      ⟨⟨"ledger", "bills"⟩, "customer", "integer", .number, false, false⟩,
      ⟨⟨"ledger", "bills"⟩, "invoice", "integer", .number, false, false⟩,
      ⟨⟨"ledger", "receipts"⟩, "customer", "integer", .number, false, false⟩,
      ⟨⟨"ledger", "receipts"⟩, "invoice", "integer", .number, false, false⟩,
      ⟨⟨"ledger", "invoices"⟩, "id", "integer", .number, false, true⟩]
    [⟨⟨"ledger", "bills"⟩, "customer", ⟨"ledger", "customers"⟩, "id"⟩,
      ⟨⟨"ledger", "bills"⟩, "invoice", ⟨"ledger", "invoices"⟩, "id"⟩,
      ⟨⟨"ledger", "receipts"⟩, "customer", ⟨"ledger", "customers"⟩, "id"⟩,
      ⟨⟨"ledger", "receipts"⟩, "invoice", ⟨"ledger", "invoices"⟩, "id"⟩]

/-- How far the lengths of the names of two tables are apart. -/
def lengthGap (a b : TableRef) : Nat :=
  (a.table.length - b.table.length) + (b.table.length - a.table.length)

/-- Two ways of two hops each lead from customers to invoices. -/
theorem leastPenalty_ledger :
    ∃ trail, (JoinGraph.ofCatalog lengthGap ledger []).shortestPath
        ⟨"ledger", "customers"⟩ ⟨"ledger", "invoices"⟩ = .ok trail ∧
      trail.path = [⟨"ledger", "customers"⟩, ⟨"ledger", "receipts"⟩, ⟨"ledger", "invoices"⟩] ∧
      (JoinGraph.ofCatalog lengthGap ledger []).penaltyAlong? trail.path =
        some trail.cost.penalty ∧
      ∃ total, (JoinGraph.ofCatalog lengthGap ledger []).penaltyAlong?
          [⟨"ledger", "customers"⟩, ⟨"ledger", "bills"⟩, ⟨"ledger", "invoices"⟩] = some total ∧
        Penalty.lt total trail.cost.penalty = false := by
  have hpath : ((JoinGraph.ofCatalog lengthGap ledger []).shortestPath
      ⟨"ledger", "customers"⟩ ⟨"ledger", "invoices"⟩).map (·.path) =
      .ok [⟨"ledger", "customers"⟩, ⟨"ledger", "receipts"⟩, ⟨"ledger", "invoices"⟩] := by
    decide +kernel
  obtain ⟨trail, htrail, hnames⟩ := map_eq_ok_iff.mp hpath
  obtain ⟨hsum, hleast⟩ := JoinGraph.shortestPath_leastPenalty lengthGap ledger [] htrail
  refine ⟨trail, htrail, hnames, hsum, hleast _ rfl rfl ?_ (by rw [hnames]; rfl)⟩
  decide +kernel

end JoinPlan
