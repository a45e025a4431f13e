import JoinPlan.Proofs.LeastPenalty
import JoinPlan.Proofs.MirroredKeys

/-!
# Links say what keys say

A key sets two links, one each way, and either of its ends may be the one that records it. Other
keys between the same tables set these links again. So every pair of tables that some key names is
linked once each way, and whichever key came last, the two links of a pair got their penalty from
the same one.

## Main definitions

* `Catalog.Names`: a table records a key to or from another.
* `JoinGraph.cost?`: the cost of the link from one table to another.
* `JoinGraph.Mutual`: the links between two tables cost the same both ways.
* `JoinGraph.LinkedByKeys`: the links of a graph are those that the keys of a catalog ask for.

## Main results

* `find?_setLink`: setting a link is seen by no look-up but its own.
* `JoinGraph.Mutual.connect`, `JoinGraph.mutual_ofCatalog`: links are set in pairs.
* `JoinGraph.linkedByKeys_ofCatalog`: the graph of a catalog is linked by its keys.
-/

namespace JoinPlan

variable {P : Type}

/-- Some column that is listed under a table has a key to another table or records one from it. -/
def Catalog.Names (catalog : Catalog) (a b : TableRef) : Prop :=
  catalog.RefersTo a b ∨ catalog.ReferredFrom a b

/-! ### Setting links -/

/-- A new penalty is not seen by a look-up of another link. -/
theorem find?_map_penalty_of_ne {source target : TableRef} {ends : TableRef × TableRef}
    (h : ends ≠ (source, target)) (penalty : P) (links : List (Link P)) :
    (links.map fun link => if link.joins source target then { link with penalty } else link).find?
        (·.ends = ends) = links.find? (·.ends = ends) := by
  induction links with
  | nil => rfl
  | cons link rest ih =>
    rw [List.map_cons]
    split_ifs with hjoins
    · have hlink : ¬ decide (link.ends = ends) = true := by
        rw [decide_eq_true_eq, Link.joins_iff.mp hjoins]
        exact Ne.symm h
      rw [List.find?_cons_of_neg (by exact hlink), List.find?_cons_of_neg (by exact hlink), ih]
    · rw [List.find?_cons, List.find?_cons, ih]

/-- The link that gets a new penalty is found with it. -/
theorem find?_map_penalty_self {source target : TableRef} (penalty : P) {links : List (Link P)}
    (h : links.any (·.joins source target) = true) :
    (links.map fun link => if link.joins source target then { link with penalty } else link).find?
        (·.ends = (source, target)) = some ⟨source, target, penalty⟩ := by
  induction links with
  | nil => cases h
  | cons link rest ih =>
    rw [List.map_cons]
    split_ifs with hjoins
    · obtain ⟨hsource, htarget⟩ := Prod.mk.inj (Link.joins_iff.mp hjoins)
      rw [List.find?_cons_of_pos (by simpa [Link.ends] using ⟨hsource, htarget⟩), hsource, htarget]
    · have hrest : rest.any (·.joins source target) = true := by
        simpa [List.any_cons, hjoins] using h
      rw [List.find?_cons_of_neg (by simpa using mt Link.joins_iff.mpr hjoins), ih hrest]

/-- **Setting a link is seen by no look-up but its own.** -/
theorem find?_setLink (source target : TableRef) (penalty : P) (links : List (Link P))
    (ends : TableRef × TableRef) :
    (setLink source target penalty links).find? (·.ends = ends) =
      if ends = (source, target) then some ⟨source, target, penalty⟩
      else links.find? (·.ends = ends) := by
  rw [setLink]
  split_ifs with hany hends hends
  · rw [hends, find?_map_penalty_self penalty hany]
  · exact find?_map_penalty_of_ne hends penalty links
  · rw [hends, List.find?_cons_of_pos (by simp [Link.ends])]
  · rw [List.find?_cons_of_neg (by exact mt of_decide_eq_true (Ne.symm hends))]

namespace JoinGraph

variable {graph : JoinGraph P} {a b : TableRef}

/-- The links between two tables have the same penalty both ways, or there is none either way. -/
def Mutual (graph : JoinGraph P) : Prop :=
  ∀ a b, graph.penalty? a b = graph.penalty? b a

/-- A key sets the links both ways at once. -/
theorem Mutual.connect (h : graph.Mutual) (source target : TableRef) (penalty : P) :
    (graph.connect source target penalty).Mutual := by
  intro a b
  rw [JoinGraph.connect]
  split
  · -- the one of the two links that is set last is the other one's way back
    have hback : ∀ x y : TableRef, (x, y) = (target, source) ↔ (y, x) = (source, target) := by
      simp [and_comm]
    simp only [penalty?, find?_setLink, hback]
    split_ifs
    · rfl
    · rfl
    · rfl
    · exact h a b
  · exact h a b

/-- **Links are set in pairs**, so they cost the same both ways. -/
theorem mutual_ofCatalog (penalty : TableRef → TableRef → P) (catalog : Catalog)
    (ignored : List TableRef) : (ofCatalog penalty catalog ignored).Mutual :=
  List.foldlRecOn (motive := Mutual) _ _ (fun _ _ => rfl) fun _ h _ _ => h.connect _ _ _

/-! ### Neighbours -/

/-- The cost of the link from one table to another, if there is one: a single hop. -/
def cost? (graph : JoinGraph P) (source target : TableRef) : Option (Cost P) :=
  (graph.penalty? source target).map (Cost.mk 1)

theorem penalty?_isSome_iff : (graph.penalty? a b).isSome = true ↔ graph.Adjacent a b := by
  constructor
  · intro h
    rw [penalty?, Option.isSome_map, List.find?_isSome] at h
    obtain ⟨link, hlink, hends⟩ := h
    obtain ⟨hsource, htarget⟩ := Prod.mk.inj (of_decide_eq_true hends)
    exact adjacent_iff.mpr ⟨link, hlink, hsource, htarget⟩
  · intro h
    obtain ⟨link, -, -, hpenalty⟩ := exists_link_of_adjacent h
    rw [hpenalty, Option.isSome_some]

/-- Where no two links lead from one table to one other, no neighbour is listed twice. -/
theorem Simple.nodup_neighbors (h : graph.Simple) (table : TableRef) :
    (graph.neighbors table).Nodup := by
  have hlinks : ((graph.linksFrom table).map (·.ends)).Nodup :=
    h.sublist (List.filter_sublist.map _)
  have hends : (graph.linksFrom table).map (·.ends) =
      (graph.neighbors table).map fun other => (table, other) := by
    rw [neighbors, List.map_map]
    refine List.map_congr_left fun link hlink => ?_
    rw [Function.comp, Link.ends, of_decide_eq_true (List.mem_filter.mp hlink).2]
  exact (hends ▸ hlinks).of_map _

/-- The links of a graph are those that the keys of a catalog ask for, whichever side records the
keys and however many of them there are. -/
structure LinkedByKeys (graph : JoinGraph P) (catalog : Catalog) : Prop where
  /-- Two tables of the graph are neighbours both ways or neither way. -/
  comm : ∀ a b, graph.contains a = true → graph.contains b = true →
    (b ∈ graph.neighbors a ↔ a ∈ graph.neighbors b)
  /-- They are neighbours if some key of the one names the other. -/
  names : ∀ a b, graph.contains a = true → graph.contains b = true →
    (b ∈ graph.neighbors a ↔ catalog.Names a b ∨ catalog.Names b a)
  /-- Nothing outside the graph is linked. -/
  contains : ∀ a b, b ∈ graph.neighbors a → graph.contains a = true ∧ graph.contains b = true
  nodup : ∀ a, (graph.neighbors a).Nodup
  selfLoop : ∀ a, graph.hasSelfLoop a = true ↔ a ∈ graph.neighbors a
  /-- Links to neighbours, and no others, have a cost. -/
  cost : ∀ a b, (graph.cost? a b).isSome = true ↔ b ∈ graph.neighbors a
  /-- It is the same in both directions. -/
  cost_comm : ∀ a b, graph.cost? a b = graph.cost? b a

/-- **The graph of a catalog is linked by its keys**, whatever the penalties and whichever tables
are left out. -/
theorem linkedByKeys_ofCatalog (penalty : TableRef → TableRef → P) (catalog : Catalog)
    (ignored : List TableRef) : (ofCatalog penalty catalog ignored).LinkedByKeys catalog := by
  have hadjacent : ∀ a b, b ∈ (ofCatalog penalty catalog ignored).neighbors a ↔
      (ofCatalog penalty catalog ignored).contains a = true ∧
        (ofCatalog penalty catalog ignored).contains b = true ∧
        (catalog.Names a b ∨ catalog.Names b a) := by
    intro a b
    have hkeys : (ofCatalog penalty catalog ignored).Adjacent a b ↔ _ := adjacent_ofCatalog_iff
    simp only [Catalog.mem_keyEnds_iff_refers] at hkeys
    simp only [JoinGraph.contains, List.contains_iff_mem]
    exact hkeys
  constructor
  case comm => exact fun a b _ _ => ⟨adjacent_ofCatalog_symm, adjacent_ofCatalog_symm⟩
  case names =>
    intro a b ha hb
    rw [hadjacent, ha, hb]
    simp only [true_and]
  case contains =>
    intro a b h
    obtain ⟨ha, hb, -⟩ := (hadjacent a b).mp h
    exact ⟨ha, hb⟩
  case nodup => exact (simple_ofCatalog penalty catalog ignored).nodup_neighbors
  case selfLoop => exact fun a => hasSelfLoop_iff
  case cost =>
    intro a b
    rw [cost?, Option.isSome_map, penalty?_isSome_iff, Adjacent]
  case cost_comm =>
    intro a b
    rw [cost?, cost?, mutual_ofCatalog]

-- each key is recorded at one end only, and one of the tables is listed twice
example :
    let orders : TableRef := ⟨"shop", "orders"⟩
    let parcels : TableRef := ⟨"shop", "parcels"⟩
    let catalog : Catalog := ⟨[⟨"shop",
      [⟨"orders", [⟨"id", "integer", .number, false, true, [], [⟨parcels, "order", 1.0, true⟩]⟩]⟩,
        ⟨"orders", []⟩,
        ⟨"parcels",
          [⟨"next", "integer", .number, true, false, [⟨parcels, "id", 1.0, true⟩], []⟩]⟩]⟩]⟩
    let graph := ofCatalog lengthGap catalog []
    graph.neighbors orders = [parcels] ∧ graph.neighbors parcels = [parcels, orders] ∧
      graph.cost? orders parcels = some ⟨1, 1⟩ ∧ graph.cost? parcels orders = some ⟨1, 1⟩ := by
  decide

end JoinGraph

end JoinPlan
