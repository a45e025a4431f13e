import JoinPlan.Proofs.Outcome
import JoinPlan.Proofs.RoutePath
import JoinPlan.Tree.Authored

/-!
# The places of authored joins

The authored joins of a tree are placed in pre-order, each below the very join it was written
under, and what leads to it from the base is a chain of adjacent tables.

## Main definitions

* `Join.preOrder`: the joins of a tree, each before its children.
* `JoinGraph.LeadsBack`: tables lead back to the base.
* `PlacedBelow`: the joins of some trees in their places, all below one parent.
* `Placement`: all joins of a tree in their places.

## Main results

* `Join.placement_of_placed`: what `Join.placed` returns is a placement.
* `Placement.leadsBack`: the trail of every placed join leads back to the base.
-/

namespace JoinPlan

mutual

/-- The joins of a tree, each before its children and these in their order. -/
def Join.preOrder : Join → List Join
  | join@⟨_, _, _, _, _, joins⟩ => join :: Join.preOrderAll joins

/-- The joins of all trees of a list. -/
def Join.preOrderAll : List Join → List Join
  | [] => []
  | join :: rest => join.preOrder ++ Join.preOrderAll rest

end

theorem Join.preOrder_eq (join : Join) : join.preOrder = join :: Join.preOrderAll join.joins := by
  obtain ⟨_, _, _, _, _, _⟩ := join
  rw [preOrder]

theorem Join.self_mem_preOrder (join : Join) : join ∈ join.preOrder :=
  join.preOrder_eq ▸ List.mem_cons_self

variable {P : Type}

/-- Tables lead from one of them, the first, along links to the base, the last. -/
structure JoinGraph.LeadsBack (graph : JoinGraph P) (base table : TableRef)
    (trail : List TableRef) : Prop where
  head : trail.head? = some table
  last : trail.getLast? = some base
  chain : trail.IsChain fun later earlier => graph.Adjacent earlier later

namespace JoinGraph.LeadsBack

variable {graph : JoinGraph P} {base table : TableRef} {trail : List TableRef}

theorem singleton (graph : JoinGraph P) (base : TableRef) : graph.LeadsBack base base [base] :=
  ⟨rfl, rfl, List.isChain_singleton _⟩

theorem eq_cons (h : graph.LeadsBack base table trail) : ∃ behind, trail = table :: behind :=
  List.head?_eq_some_iff.mp h.head

/-- The last part of a way back is one itself. -/
theorem suffix (h : graph.LeadsBack base table trail) {first : TableRef} {behind : List TableRef}
    (hsuffix : first :: behind <:+ trail) : graph.LeadsBack base first (first :: behind) where
  head := rfl
  last := by
    obtain ⟨front, rfl⟩ := hsuffix
    rw [← h.last, List.getLast?_append, List.getLast?_cons, Option.some_or]
  chain := h.chain.suffix hsuffix

/-- A way back goes on where another one starts. -/
theorem append (h : graph.LeadsBack base table trail) {target : TableRef} {rest : List TableRef}
    (hrest : graph.LeadsOn table target rest) :
    graph.LeadsBack base target (rest.reverse ++ trail) := by
  obtain ⟨behind, rfl⟩ := h.eq_cons
  refine ⟨?_, ?_, ?_⟩
  · rw [List.head?_append, List.head?_reverse, hrest.last, Option.some_or]
  · rw [List.getLast?_append, h.last, Option.some_or]
  · have hchain := List.isChain_reverse.mpr hrest.chain
    rw [List.reverse_cons] at hchain
    have hboth := hchain.append_overlap h.chain (List.cons_ne_nil _ _)
    rwa [List.append_assoc, List.singleton_append] at hboth

end JoinGraph.LeadsBack

/-! ### Places -/

variable [Penalty P] {graph : JoinGraph P} {catalog : Catalog}

/-- A join is placed after its table was found and before its children. -/
theorem Join.placedFrom_eq {parent : Option (Nat × AuthoredJoin)} {position : Nat} (join : Join) :
    join.placedFrom catalog graph parent position =
      catalog.findTable join.table >>= fun _ => join.place graph parent >>= fun entry =>
        checkSiblings entry.trail join.joins >>= fun _ =>
          Join.placedAll catalog graph (some (position, entry)) (position + 1) join.joins >>=
            fun below => pure (entry :: below) := by
  obtain ⟨_, _, _, _, _, _⟩ := join
  rw [placedFrom]

/-- The joins of some trees in their places. The trees stand below one parent, if any, and their
first join has the given position. Every other join stands below the one it was written under,
which comes before it. -/
structure PlacedBelow (graph : JoinGraph P) (parent : Option (Nat × AuthoredJoin)) (position : Nat)
    (trees : List Join) (placed : List AuthoredJoin) : Prop where
  joins : placed.map (·.join) = Join.preOrderAll trees
  place : ∀ (i : Nat) (entry : AuthoredJoin), placed[i]? = some entry →
    (entry.join ∈ trees ∧ entry.join.place graph parent = .ok entry) ∨
      ∃ (k : Nat) (above : AuthoredJoin), k < i ∧ placed[k]? = some above ∧
        entry.join ∈ above.join.joins ∧
          entry.join.place graph (some (position + k, above)) = .ok entry

theorem PlacedBelow.nil (graph : JoinGraph P) (parent : Option (Nat × AuthoredJoin))
    (position : Nat) : PlacedBelow graph parent position [] [] :=
  ⟨rfl, fun _ _ h => by simp at h⟩

theorem join_of_place {parent : Option (Nat × AuthoredJoin)} {join : Join} {entry : AuthoredJoin}
    (h : join.place graph parent = .ok entry) : entry.join = join := by
  cases parent with
  | none =>
    cases h
    rfl
  | some above =>
    obtain ⟨route, -, h⟩ := bind_eq_ok_iff.mp h
    cases h
    rfl

/-- A join with what stands below it. -/
theorem PlacedBelow.cons {parent : Option (Nat × AuthoredJoin)} {position : Nat} {join : Join}
    {head : AuthoredJoin} {below : List AuthoredJoin} (hhead : join.place graph parent = .ok head)
    (h : PlacedBelow graph (some (position, head)) (position + 1) join.joins below) :
    PlacedBelow graph parent position [join] (head :: below) where
  joins := by
    simp [Join.preOrderAll, Join.preOrder_eq, join_of_place hhead, h.joins]
  place := by
    have hjoin := join_of_place hhead
    intro i entry hentry
    cases i with
    | zero =>
      cases hentry
      exact .inl ⟨by simp [hjoin], hjoin.symm ▸ hhead⟩
    | succ i =>
      refine .inr ?_
      rcases h.place i entry hentry with ⟨hmem, hplace⟩ | ⟨k, above, hk, habove, hmem, hplace⟩
      · exact ⟨0, head, Nat.succ_pos i, rfl, hjoin.symm ▸ hmem, hplace⟩
      · refine ⟨k + 1, above, Nat.succ_lt_succ hk, habove, hmem, ?_⟩
        rwa [Nat.add_right_comm] at hplace

/-- Trees beside one another. -/
theorem PlacedBelow.append {parent : Option (Nat × AuthoredJoin)} {position : Nat} {join : Join}
    {rest : List Join} {first others : List AuthoredJoin}
    (h₁ : PlacedBelow graph parent position [join] first)
    (h₂ : PlacedBelow graph parent (position + first.length) rest others) :
    PlacedBelow graph parent position (join :: rest) (first ++ others) where
  joins := by
    simp [h₁.joins, h₂.joins, Join.preOrderAll]
  place := by
    intro i entry hentry
    by_cases hi : i < first.length
    · rw [List.getElem?_append_left hi] at hentry
      rcases h₁.place i entry hentry with ⟨hmem, hplace⟩ | ⟨k, above, hk, habove, hmem, hplace⟩
      · exact .inl ⟨by simp_all, hplace⟩
      · refine .inr ⟨k, above, hk, ?_, hmem, hplace⟩
        rw [List.getElem?_append_left (by omega), habove]
    · rw [List.getElem?_append_right (by omega)] at hentry
      rcases h₂.place _ entry hentry with ⟨hmem, hplace⟩ | ⟨k, above, hk, habove, hmem, hplace⟩
      · exact .inl ⟨List.mem_cons_of_mem _ hmem, hplace⟩
      · refine .inr ⟨first.length + k, above, by omega, ?_, hmem, ?_⟩
        · rw [List.getElem?_append_right (Nat.le_add_right _ _), Nat.add_sub_cancel_left, habove]
        · rwa [Nat.add_assoc] at hplace

mutual

/-- What is placed below a parent is a join in its place with what stands below it. -/
theorem Join.placedBelow_of_placedFrom {parent : Option (Nat × AuthoredJoin)} {position : Nat} :
    ∀ {join : Join} {placed : List AuthoredJoin},
      join.placedFrom catalog graph parent position = .ok placed →
      ∃ head below, placed = head :: below ∧ join.place graph parent = .ok head ∧
        PlacedBelow graph (some (position, head)) (position + 1) join.joins below
  | ⟨_, _, _, _, _, joins⟩, placed, h => by
    rw [placedFrom_eq] at h
    obtain ⟨_, -, h⟩ := bind_eq_ok_iff.mp h
    obtain ⟨head, hhead, h⟩ := bind_eq_ok_iff.mp h
    obtain ⟨_, -, h⟩ := bind_eq_ok_iff.mp h
    obtain ⟨below, hbelow, h⟩ := bind_eq_ok_iff.mp h
    cases h
    exact ⟨head, below, rfl, hhead, Join.placedBelow_of_placedAll hbelow⟩

theorem Join.placedBelow_of_placedAll {parent : Option (Nat × AuthoredJoin)} {position : Nat} :
    ∀ {joins : List Join} {placed : List AuthoredJoin},
      Join.placedAll catalog graph parent position joins = .ok placed →
      PlacedBelow graph parent position joins placed
  | [], placed, h => by
    rw [placedAll] at h
    cases h
    exact PlacedBelow.nil graph parent position
  | join :: rest, placed, h => by
    rw [placedAll] at h
    obtain ⟨first, hfirst, h⟩ := bind_eq_ok_iff.mp h
    obtain ⟨others, hothers, h⟩ := bind_eq_ok_iff.mp h
    cases h
    obtain ⟨head, below, rfl, hhead, hbelow⟩ := Join.placedBelow_of_placedFrom hfirst
    exact (PlacedBelow.cons hhead hbelow).append (Join.placedBelow_of_placedAll hothers)

end

/-- All joins of a tree in their places: the base first, and every other join below the one it was
written under, which comes before it. -/
structure Placement (graph : JoinGraph P) (base : Join) (placed : List AuthoredJoin) : Prop where
  joins : placed.map (·.join) = base.preOrder
  base : placed[0]? = some ⟨base, [base.table], []⟩
  below : ∀ (i : Nat) (entry : AuthoredJoin), placed[i + 1]? = some entry →
    ∃ (k : Nat) (above : AuthoredJoin), k ≤ i ∧ placed[k]? = some above ∧
      entry.join ∈ above.join.joins ∧ entry.join.place graph (some (k, above)) = .ok entry

theorem Join.placement_of_placed {base : Join} {placed : List AuthoredJoin}
    (h : base.placed catalog graph = .ok placed) : Placement graph base placed := by
  obtain ⟨head, below, rfl, hhead, hbelow⟩ := Join.placedBelow_of_placedFrom h
  cases hhead
  refine ⟨by simp [hbelow.joins, Join.preOrder_eq], rfl, fun i entry hentry => ?_⟩
  rcases hbelow.place i entry hentry with ⟨hmem, hplace⟩ | ⟨k, above, hk, habove, hmem, hplace⟩
  · exact ⟨0, _, Nat.zero_le i, rfl, hmem, hplace⟩
  · exact ⟨k + 1, above, hk, habove, hmem, by rwa [Nat.add_comm] at hplace⟩

/-! ### Trails -/

/-- The trail of a join below another goes on from the other's. -/
theorem trail_of_place {position : Nat} {above entry : AuthoredJoin} {join : Join}
    (h : join.place graph (some (position, above)) = .ok entry) :
    ∃ rest, graph.LeadsOn above.join.table join.table rest ∧
      entry.trail = rest.reverse ++ above.trail := by
  obtain ⟨route, hroute, h⟩ := bind_eq_ok_iff.mp h
  obtain ⟨rest, rfl, hrest⟩ := JoinGraph.path_of_resolveRoute hroute
  cases h
  exact ⟨rest, hrest, rfl⟩

theorem ancestors_of_place {position : Nat} {above entry : AuthoredJoin} {join : Join}
    (h : join.place graph (some (position, above)) = .ok entry) :
    entry.ancestors = position :: above.ancestors := by
  obtain ⟨route, -, h⟩ := bind_eq_ok_iff.mp h
  cases h
  rfl

namespace Placement

variable {base : Join} {placed : List AuthoredJoin}

theorem leadsBack (h : Placement graph base placed) {i : Nat} {entry : AuthoredJoin}
    (hentry : placed[i]? = some entry) :
    graph.LeadsBack base.table entry.join.table entry.trail := by
  induction i using Nat.strongRecOn generalizing entry with
  | ind i ih =>
    cases i with
    | zero =>
      rw [h.base] at hentry
      cases hentry
      exact JoinGraph.LeadsBack.singleton graph base.table
    | succ i =>
      obtain ⟨k, above, hk, habove, -, hplace⟩ := h.below i entry hentry
      obtain ⟨rest, hrest, htrail⟩ := trail_of_place hplace
      rw [htrail]
      exact (ih k (Nat.lt_succ_of_le hk) habove).append hrest

/-- A join other than the base lies beyond it. -/
theorem one_lt_length_trail (h : Placement graph base placed) {i : Nat} {entry : AuthoredJoin}
    (hentry : placed[i + 1]? = some entry) : 1 < entry.trail.length := by
  obtain ⟨k, above, -, habove, -, hplace⟩ := h.below i entry hentry
  obtain ⟨rest, hrest, htrail⟩ := trail_of_place hplace
  have hfirst : 0 < rest.length := List.length_pos_iff.mpr hrest.ne_nil
  obtain ⟨behind, hbehind⟩ := (h.leadsBack habove).eq_cons
  simp only [htrail, hbehind, List.length_append, List.length_reverse, List.length_cons]
  omega

theorem ancestors_ne_nil (h : Placement graph base placed) {i : Nat} {entry : AuthoredJoin}
    (hentry : placed[i + 1]? = some entry) : entry.ancestors ≠ [] := by
  obtain ⟨k, above, -, -, -, hplace⟩ := h.below i entry hentry
  rw [ancestors_of_place hplace]
  exact List.cons_ne_nil _ _

end Placement

end JoinPlan
