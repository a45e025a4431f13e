import JoinPlan.Proofs.TreeLinks
import Mathlib.Data.List.Nodup
import Mathlib.Data.List.Perm.Subperm

/-!
# Pre-order reaches every join once

The positions in pre-order are taken from a stack, onto which the children of every position go in
turn. That each position comes up once, and after its parent, is an invariant of what was visited
and what waits on the stack. That every position comes up at all needs one more thing: going from
parent to parent leads to the base, because trails get shorter.

Statements join the children of a position all at once when it is visited, so tables are introduced
in another order than they are visited in. That order has the same properties.

## Main definitions

* `JoinTree.ParentsFirst`: every join of a list comes after its parent.
* `JoinTree.Visits`: the loop over a stack ends, with the positions that it visited.
* `JoinTree.Traversed`: what holds between the joins that were visited and those that wait.
* `JoinTree.introduced`: the base, and then the children of each join in pre-order.

## Main results

* `JoinTree.visits_preOrder`: the loop ends, and pre-order is what it visits.
* `JoinTree.perm_preOrder`, `JoinTree.perm_introduced`: both orders have every position once.
* `JoinTree.parentsFirst_preOrder`, `JoinTree.parentsFirst_introduced`: parents come first.
* `JoinTree.perm_joinsInOrder`: the joins in pre-order are the joins of the tree.
-/

namespace JoinPlan

namespace JoinTree

variable {tree : JoinTree} {id : Nat} {visited stack seen more xs : List Nat}

/-- Every join of a list is the base or comes after its parent, which may also be one of those that
were seen before. -/
def ParentsFirst (tree : JoinTree) (seen : List Nat) : List Nat → Prop
  | [] => True
  | id :: rest =>
    (id = root ∨ ∃ parent ∈ seen, tree.parentOf? id = some parent) ∧
      tree.ParentsFirst (id :: seen) rest

theorem ParentsFirst.mono (h : tree.ParentsFirst seen xs) (hsub : seen ⊆ more) :
    tree.ParentsFirst more xs := by
  induction xs generalizing seen more with
  | nil => trivial
  | cons id rest ih =>
    obtain ⟨hid, hrest⟩ := h
    refine ⟨hid.imp_right ?_, ih hrest (List.cons_subset_cons id hsub)⟩
    rintro ⟨parent, hmem, hparent⟩
    exact ⟨parent, hsub hmem, hparent⟩

theorem parentsFirst_append_iff : tree.ParentsFirst seen (xs ++ more) ↔
    tree.ParentsFirst seen xs ∧ tree.ParentsFirst (xs.reverse ++ seen) more := by
  induction xs generalizing seen with
  | nil => simp [ParentsFirst]
  | cons id rest ih => simp [ParentsFirst, ih, and_assoc]

/-- Every join of a list is the base or has its parent somewhere before it. -/
theorem ParentsFirst.exists_earlier (h : tree.ParentsFirst [] xs) {i : Nat}
    (hid : xs[i]? = some id) :
    id = root ∨ ∃ j parent, j < i ∧ xs[j]? = some parent ∧ tree.parentOf? id = some parent := by
  obtain ⟨hi, rfl⟩ := List.getElem?_eq_some_iff.mp hid
  have hsplit : xs = xs.take i ++ xs[i] :: xs.drop (i + 1) := by
    rw [← List.drop_eq_getElem_cons hi, List.take_append_drop]
  rw [hsplit, parentsFirst_append_iff, List.append_nil] at h
  refine h.2.1.imp_right ?_
  rintro ⟨parent, hmem, hparent⟩
  obtain ⟨j, hj⟩ := List.getElem?_of_mem (List.mem_reverse.mp hmem)
  have hlt := (List.getElem?_eq_some_iff.mp hj).1
  rw [List.length_take] at hlt
  have hji : j < i := by omega
  rw [List.getElem?_take_of_lt hji] at hj
  exact ⟨j, parent, hji, hj, hparent⟩

/-! ### Visiting all joins -/

/-- The loop over a stack ends, with the positions that it visited. A position is popped, and its
children are pushed so that the first of them comes next. -/
inductive Visits (tree : JoinTree) : List Nat → List Nat → Prop
  | done : Visits tree [] []
  | pop {id : Nat} {stack ids : List Nat} (rest : Visits tree (tree.childrenOf id ++ stack) ids) :
      Visits tree (id :: stack) (id :: ids)

theorem Visits.unique {ids other : List Nat} (h : tree.Visits stack ids)
    (hother : tree.Visits stack other) : ids = other := by
  induction h generalizing other with
  | done =>
    cases hother
    rfl
  | pop _ ih =>
    cases hother with
    | pop rest => rw [ih rest]

/-- The joins that were visited, and those that wait. -/
structure Traversed (tree : JoinTree) (visited stack : List Nat) : Prop where
  /-- Nothing was visited twice, or waits twice, or still waits. -/
  nodup : (visited ++ stack).Nodup
  lt : ∀ id ∈ visited ++ stack, id < tree.nodes.length
  /-- The children of what was visited are not forgotten. -/
  closed : ∀ id ∈ visited, ∀ child ∈ tree.childrenOf id, child ∈ visited ++ stack
  /-- Only children of what was visited wait, apart from the base. -/
  parents : ∀ id ∈ stack, id = root ∨ ∃ parent ∈ visited, tree.parentOf? id = some parent
  first : tree.ParentsFirst [] visited

theorem lt_length_of_parentOf? {parent : Nat} (h : tree.parentOf? id = some parent) :
    id < tree.nodes.length := by
  obtain ⟨node, hnode, -⟩ := Option.bind_eq_some_iff.mp h
  exact (List.getElem?_eq_some_iff.mp hnode).1

theorem Linked.nodup_childrenOf (h : tree.Linked) (parent : Nat) :
    (tree.childrenOf parent).Nodup := by
  rw [List.nodup_iff_count_le_one]
  intro id
  rw [h.count]
  split_ifs <;> omega

theorem traversed_initial (hroot : root < tree.nodes.length) : tree.Traversed [] [root] where
  nodup := List.nodup_singleton _
  lt := by simpa using hroot
  closed := by simp
  parents := by simp
  first := trivial

/-- A waiting join is visited, and its children wait. -/
theorem Traversed.visit (h : tree.Traversed visited (id :: stack)) (hl : tree.Linked)
    (hroot : tree.parentOf? root = none) :
    tree.Traversed (visited ++ [id]) (tree.childrenOf id ++ stack) := by
  -- a child of the join would have come up only after it
  have hnew : ∀ child ∈ tree.childrenOf id, child ∉ visited ++ id :: stack := by
    intro child hchild hmem
    have hparent := hl.mem_childrenOf_iff.mp hchild
    have hvisited : id ∈ visited := by
      rcases List.mem_append.mp hmem with hmem | hmem
      · obtain ⟨front, rest, rfl⟩ := List.append_of_mem hmem
        rcases (parentsFirst_append_iff.mp h.first).2.1 with rfl | ⟨parent, hfront, hsame⟩
        · rw [hroot] at hparent
          cases hparent
        · rw [hparent] at hsame
          cases hsame
          exact List.mem_append_left _ (by simpa using hfront)
      · rcases h.parents child hmem with rfl | ⟨parent, hparents, hsame⟩
        · rw [hroot] at hparent
          cases hparent
        · rw [hparent] at hsame
          cases hsame
          exact hparents
    exact List.disjoint_of_nodup_append h.nodup hvisited List.mem_cons_self
  have hsplit : visited ++ [id] ++ (tree.childrenOf id ++ stack) =
      (visited ++ [id]) ++ tree.childrenOf id ++ stack := by
    simp only [List.append_assoc]
  have hperm : (visited ++ [id] ++ (tree.childrenOf id ++ stack)).Perm
      (tree.childrenOf id ++ (visited ++ id :: stack)) := by
    rw [hsplit, List.append_assoc]
    refine List.perm_append_comm_assoc _ _ _ |>.trans ?_
    simp
  constructor
  · rw [hperm.nodup_iff, List.nodup_append]
    refine ⟨hl.nodup_childrenOf id, h.nodup, ?_⟩
    rintro child hchild _ hmem rfl
    exact hnew child hchild hmem
  · intro other hother
    rcases List.mem_append.mp (hperm.mem_iff.mp hother) with hchild | hold
    · exact lt_length_of_parentOf? (hl.mem_childrenOf_iff.mp hchild)
    · exact h.lt other hold
  · intro other hother child hchild
    rw [hperm.mem_iff, List.mem_append]
    rcases List.mem_append.mp hother with hold | hself
    · exact .inr (h.closed other hold child hchild)
    · rw [List.mem_singleton] at hself
      exact .inl (hself ▸ hchild)
  · intro other hother
    rcases List.mem_append.mp hother with hchild | hold
    · exact .inr ⟨id, by simp, hl.mem_childrenOf_iff.mp hchild⟩
    · refine (h.parents other (List.mem_cons_of_mem _ hold)).imp_right ?_
      rintro ⟨parent, hmem, hparent⟩
      exact ⟨parent, List.mem_append_left _ hmem, hparent⟩
  · rw [parentsFirst_append_iff, List.append_nil]
    refine ⟨h.first, (h.parents id List.mem_cons_self).imp_right ?_, trivial⟩
    rintro ⟨parent, hmem, hparent⟩
    exact ⟨parent, List.mem_reverse.mpr hmem, hparent⟩

theorem Traversed.length_le (h : tree.Traversed visited stack) :
    visited.length + stack.length ≤ tree.nodes.length := by
  have hsub : visited ++ stack ⊆ List.range tree.nodes.length :=
    fun id hid => List.mem_range.mpr (h.lt id hid)
  simpa using (List.subperm_of_subset h.nodup hsub).length_le

/-- With a step for every join of the tree the loop over the stack ends. -/
theorem Traversed.visits (h : tree.Traversed visited stack) (hl : tree.Linked)
    (hroot : tree.parentOf? root = none) {steps : Nat}
    (hsteps : tree.nodes.length ≤ visited.length + steps) :
    tree.Visits stack (tree.preOrderFrom steps stack) := by
  induction steps generalizing visited stack with
  | zero =>
    have hlength := h.length_le
    obtain rfl : stack = [] := List.eq_nil_of_length_eq_zero (by omega)
    exact .done
  | succ steps ih =>
    cases stack with
    | nil => exact .done
    | cons id stack => exact .pop (ih (h.visit hl hroot) (by simp; omega))

/-- When the loop has ended, everything was visited as it should and nothing waits. -/
theorem Traversed.run (h : tree.Traversed visited stack) (hl : tree.Linked)
    (hroot : tree.parentOf? root = none) {ids : List Nat} (hids : tree.Visits stack ids) :
    tree.Traversed (visited ++ ids) [] := by
  induction hids generalizing visited with
  | done => rwa [List.append_nil]
  | pop _ ih =>
    have hnext := ih (h.visit hl hroot)
    rwa [List.append_assoc, List.singleton_append] at hnext

theorem root_mem_preOrder (hroot : root < tree.nodes.length) : root ∈ tree.preOrder := by
  obtain ⟨steps, hsteps⟩ := Nat.exists_eq_succ_of_ne_zero (Nat.ne_of_gt hroot)
  rw [preOrder, hsteps, preOrderFrom]
  exact List.mem_cons_self

section

variable (hl : tree.Linked) (hloose : ∀ id, tree.IsLoose id ↔ id = root)

include hl hloose

/-- **Pre-order is what the loop visits** when it starts with the base. -/
theorem visits_preOrder : tree.Visits [root] tree.preOrder :=
  have hbase := (hloose root).mpr rfl
  (traversed_initial hbase.1).visits hl hbase.2 (by simp)

theorem traversed_preOrder : tree.Traversed tree.preOrder [] := by
  have hbase := (hloose root).mpr rfl
  simpa using (traversed_initial hbase.1).run hl hbase.2 (visits_preOrder hl hloose)

/-- Parents come first in pre-order. -/
theorem parentsFirst_preOrder : tree.ParentsFirst [] tree.preOrder :=
  (traversed_preOrder hl hloose).first

theorem nodup_preOrder : tree.preOrder.Nodup := by
  simpa using (traversed_preOrder hl hloose).nodup

/-- A join is the base or has a parent, whose trail is the rest of its own. -/
theorem root_or_exists_parent {trail : List TableRef} (htrail : tree.trailOf? id = some trail) :
    id = root ∨ ∃ parent table behind, tree.parentOf? id = some parent ∧ trail = table :: behind ∧
      tree.trailOf? parent = some behind := by
  cases hparent : tree.parentOf? id with
  | none => exact .inl ((hloose id).mp ⟨lt_length_of_trailOf? htrail, hparent⟩)
  | some parent =>
    obtain ⟨table, behind, hchild, habove⟩ := hl.beyond id parent hparent
    rw [htrail] at hchild
    exact .inr ⟨parent, table, behind, rfl, Option.some.inj hchild, habove⟩

/-- Every join is reached, for its parent is. -/
theorem mem_preOrder_iff : id ∈ tree.preOrder ↔ id < tree.nodes.length := by
  have htraversed := traversed_preOrder hl hloose
  refine ⟨fun hid => htraversed.lt id (by simpa using hid), fun hid => ?_⟩
  obtain ⟨trail, htrail⟩ : ∃ trail, tree.trailOf? id = some trail :=
    ⟨_, trailOf?_eq (List.getElem?_eq_getElem hid)⟩
  -- the trail of a parent is shorter
  induction trail generalizing id with
  | nil =>
    rcases root_or_exists_parent hl hloose htrail with rfl | ⟨_, _, _, -, hnil, -⟩
    · exact root_mem_preOrder hid
    · cases hnil
  | cons first rest ih =>
    rcases root_or_exists_parent hl hloose htrail with rfl | ⟨parent, _, _, hparent, heq, habove⟩
    · exact root_mem_preOrder hid
    · cases heq
      have hmem := ih (lt_length_of_trailOf? habove) habove
      simpa using htraversed.closed parent hmem id (hl.mem_childrenOf_iff.mpr hparent)

/-- **Pre-order has every position once.** -/
theorem perm_preOrder : tree.preOrder.Perm (List.range tree.nodes.length) := by
  refine (List.perm_ext_iff_of_nodup (nodup_preOrder hl hloose) List.nodup_range).mpr fun id => ?_
  rw [mem_preOrder_iff hl hloose, List.mem_range]

/-- **The joins in pre-order are the joins of the tree.** -/
theorem perm_joinsInOrder : tree.joinsInOrder.Perm tree.nodes := by
  have hall : (List.range tree.nodes.length).filterMap tree.node? = tree.nodes := by
    have hmap : (List.range tree.nodes.length).map tree.node? = tree.nodes.map some := by
      refine List.ext_getElem (by simp) fun i _ _ => ?_
      simp [node?]
    have hids := congrArg (List.filterMap id) hmap
    rwa [List.filterMap_map, List.filterMap_map, Function.id_comp, Function.id_comp,
      List.filterMap_some] at hids
  exact hall ▸ (perm_preOrder hl hloose).filterMap tree.node?

end

/-! ### Introducing all joins -/

/-- The base, and then the children of every join in pre-order. -/
def introduced (tree : JoinTree) : List Nat :=
  root :: tree.preOrder.flatMap tree.childrenOf

theorem parentsFirst_of_forall
    (h : ∀ id ∈ xs, ∃ parent ∈ seen, tree.parentOf? id = some parent) :
    tree.ParentsFirst seen xs := by
  induction xs generalizing seen with
  | nil => trivial
  | cons id rest ih =>
    refine ⟨.inr (h id List.mem_cons_self), ih fun other hother => ?_⟩
    obtain ⟨parent, hmem, hparent⟩ := h other (List.mem_cons_of_mem _ hother)
    exact ⟨parent, List.mem_cons_of_mem _ hmem, hparent⟩

/-- Where joins come after their parents, so do the children that they have. -/
theorem ParentsFirst.flatMap_childrenOf (hl : tree.Linked) (h : tree.ParentsFirst visited xs)
    (hroot : root ∈ seen) (hseen : ∀ id ∈ visited, ∀ child ∈ tree.childrenOf id, child ∈ seen) :
    tree.ParentsFirst seen (xs.flatMap tree.childrenOf) := by
  induction xs generalizing visited seen with
  | nil => trivial
  | cons id rest ih =>
    obtain ⟨hid, hrest⟩ := h
    have hmem : id ∈ seen := by
      rcases hid with rfl | ⟨parent, hparents, hparent⟩
      · exact hroot
      · exact hseen parent hparents id (hl.mem_childrenOf_iff.mpr hparent)
    rw [List.flatMap_cons, parentsFirst_append_iff]
    refine ⟨parentsFirst_of_forall fun child hchild => ?_, ih hrest ?_ ?_⟩
    · exact ⟨id, hmem, hl.mem_childrenOf_iff.mp hchild⟩
    · exact List.mem_append_right _ hroot
    · intro other hother child hchild
      rcases List.mem_cons.mp hother with rfl | hold
      · exact List.mem_append_left _ (List.mem_reverse.mpr hchild)
      · exact List.mem_append_right _ (hseen other hold child hchild)

section

variable (hl : tree.Linked) (hloose : ∀ id, tree.IsLoose id ↔ id = root)

include hl hloose

/-- Parents are introduced first. -/
theorem parentsFirst_introduced : tree.ParentsFirst [] tree.introduced :=
  ⟨.inl rfl, (parentsFirst_preOrder hl hloose).flatMap_childrenOf hl (by simp) (by simp)⟩

theorem nodup_introduced : tree.introduced.Nodup := by
  rw [introduced, List.nodup_cons, List.nodup_flatMap]
  refine ⟨fun hmem => ?_, fun id _ => hl.nodup_childrenOf id, ?_⟩
  · obtain ⟨parent, -, hchild⟩ := List.mem_flatMap.mp hmem
    rw [hl.mem_childrenOf_iff, ((hloose root).mpr rfl).2] at hchild
    cases hchild
  · refine (nodup_preOrder hl hloose).imp fun {a b} hne => ?_
    intro child ha hb
    rw [hl.mem_childrenOf_iff] at ha hb
    rw [ha] at hb
    exact hne (Option.some.inj hb)

/-- **Every position is introduced once.** -/
theorem perm_introduced : tree.introduced.Perm (List.range tree.nodes.length) := by
  refine (List.perm_ext_iff_of_nodup (nodup_introduced hl hloose) List.nodup_range).mpr
    fun id => ?_
  rw [List.mem_range, introduced, List.mem_cons]
  constructor
  · rintro (rfl | hmem)
    · exact ((hloose root).mpr rfl).1
    · obtain ⟨parent, -, hchild⟩ := List.mem_flatMap.mp hmem
      exact lt_length_of_parentOf? (hl.mem_childrenOf_iff.mp hchild)
  · intro hid
    have htrail := trailOf?_eq (List.getElem?_eq_getElem hid : tree.node? id = _)
    refine (root_or_exists_parent hl hloose htrail).imp_right ?_
    rintro ⟨parent, _, _, hparent, -, habove⟩
    exact List.mem_flatMap.mpr ⟨parent, (mem_preOrder_iff hl hloose).mpr
      (lt_length_of_trailOf? habove), hl.mem_childrenOf_iff.mpr hparent⟩

end

end JoinTree

end JoinPlan
