import JoinPlan.Proofs.EquivalentQueries

/-!
# Equivalence of queries is an equivalence

Two joins are compared from the outside in, and a comparison may end early in two ways. It ends at
the first difference, and it ends at a selection that cannot be expanded. Which of the two comes
first must not depend on which join is on the left.

It does not, because selections are only expanded where the tables are the same. If both selections
fail there, they fail in the same way.

That joins are equivalent means that they become the same one once all their selections are written
out. So equivalence is transitive like equality. It is reflexive only for joins that can be written
out. Comparing any other with itself ends at the first selection that cannot be expanded.

## Main definitions

* `Join.writeOut`: the join with all its selections written out.
* `Join.Expandable`: all selections of a join can be expanded.

## Main results

* `Join.equivalent_comm`: the two sides can be swapped, errors included.
* `Join.equivalent_eq_ok_true_iff`: equivalent joins are written out as the same one.
* `Join.equivalent_self`: what comes of comparing a join with itself.
* `Query.equivalent_laws`: the laws of an equivalence.
-/

namespace JoinPlan

variable {catalog : Catalog} {a b c : Join}

/-! ### Swapping the sides -/

/-- Two steps can be swapped if they cannot fail in different ways. -/
theorem bind_comm_of_error {ε α β γ : Type} {x : Except ε α} {y : Except ε β}
    (h : ∀ d e, x = .error d → y = .error e → d = e) (f : α → β → Except ε γ) :
    (x >>= fun a => y >>= fun b => f a b) = y >>= fun b => x >>= fun a => f a b := by
  cases x with
  | ok a => rfl
  | error d =>
    cases y with
    | ok b => rfl
    | error e => exact congrArg Except.error (h d e rfl rfl)

theorem Join.sameNode_comm (a b : Join) : a.sameNode b = b.sameNode a := by
  rw [Bool.eq_iff_iff, sameNode_iff, sameNode_iff]
  simp only [eq_comm]

/-- A selection can only fail for the table it is on. -/
theorem Join.expandedSelect_eq_error_iff {join : Join} {e : QueryError} :
    join.expandedSelect catalog = .error e ↔
      join.select = .all ∧ catalog.findTable join.table = .error e := by
  rw [expandedSelect]
  cases join.select with
  | all => simp only [map_eq_error_iff, true_and]
  | columns names => simp

/-- The selections of two joins are compared in either order with the same outcome. -/
theorem Join.compare_comm (htable : a.table = b.table)
    (f : List String → List String → Except QueryError Bool) :
    (a.expandedSelect catalog >>= fun names => b.expandedSelect catalog >>= fun others =>
      f names others) =
      b.expandedSelect catalog >>= fun others => a.expandedSelect catalog >>= fun names =>
        f names others := by
  refine bind_comm_of_error (fun d e hd he => ?_) f
  rw [expandedSelect_eq_error_iff, htable] at hd
  rw [expandedSelect_eq_error_iff] at he
  exact Except.error.inj (hd.2.symm.trans he.2)

mutual

/-- **The two sides can be swapped**, errors included. -/
theorem Join.equivalent_comm : ∀ a b : Join, a.equivalent catalog b = b.equivalent catalog a
  | ⟨ta, va, sa, ca, oa, as⟩, ⟨tb, vb, sb, cb, ob, bs⟩ => by
    rw [equivalent, equivalent, sameNode_comm]
    split_ifs with hsame
    · rw [compare_comm (sameNode_iff.mp hsame).1.symm]
      refine bind_congr fun others => bind_congr fun names => ?_
      rw [Join.allEquivalent_comm as bs]
      simp only [eq_comm]
    · rfl

theorem Join.allEquivalent_comm : ∀ as bs : List Join,
    Join.allEquivalent catalog as bs = Join.allEquivalent catalog bs as
  | [], [] => rfl
  | [], _ :: _ => rfl
  | _ :: _, [] => rfl
  | a :: as, b :: bs => by
    rw [allEquivalent, allEquivalent, Join.equivalent_comm a b, Join.allEquivalent_comm as bs]

end

/-! ### Joins that are written out -/

mutual

/-- The join with all its selections written out, from the outside in. -/
def Join.writeOut (catalog : Catalog) : Join → Except QueryError Join
  | join@⟨table, via, _, condition, orderBy, joins⟩ => do
    let names ← join.expandedSelect catalog
    let below ← Join.writeOutAll catalog joins
    return ⟨table, via, .columns names, condition, orderBy, below⟩

/-- The joins of a list with all their selections written out. -/
def Join.writeOutAll (catalog : Catalog) : List Join → Except QueryError (List Join)
  | [] => return []
  | join :: rest => do
    let first ← Join.writeOut catalog join
    let others ← Join.writeOutAll catalog rest
    return first :: others

end

theorem Join.writeOut_eq_ok_iff {written : Join} : a.writeOut catalog = .ok written ↔
    ∃ names below, a.expandedSelect catalog = .ok names ∧
      Join.writeOutAll catalog a.joins = .ok below ∧
      written = ⟨a.table, a.via, .columns names, a.condition, a.orderBy, below⟩ := by
  obtain ⟨table, via, select, condition, orderBy, joins⟩ := a
  rw [writeOut]
  simp only [bind_eq_ok_iff, pure_eq_ok_iff]
  constructor
  · rintro ⟨names, hnames, below, hbelow, rfl⟩
    exact ⟨names, below, hnames, hbelow, rfl⟩
  · rintro ⟨names, below, hnames, hbelow, rfl⟩
    exact ⟨names, hnames, below, hbelow, rfl⟩

theorem Join.writeOutAll_cons_eq_ok_iff {as written : List Join} :
    Join.writeOutAll catalog (a :: as) = .ok written ↔ ∃ first others,
      a.writeOut catalog = .ok first ∧ Join.writeOutAll catalog as = .ok others ∧
      written = first :: others := by
  rw [writeOutAll]
  simp only [bind_eq_ok_iff, pure_eq_ok_iff]
  constructor
  · rintro ⟨first, hfirst, others, hothers, rfl⟩
    exact ⟨first, others, hfirst, hothers, rfl⟩
  · rintro ⟨first, others, hfirst, hothers, rfl⟩
    exact ⟨first, hfirst, others, hothers, rfl⟩

theorem Join.length_of_writeOutAll {as written : List Join}
    (h : Join.writeOutAll catalog as = .ok written) : written.length = as.length := by
  induction as generalizing written with
  | nil =>
    cases h
    rfl
  | cons a as ih =>
    obtain ⟨first, others, -, hothers, rfl⟩ := writeOutAll_cons_eq_ok_iff.mp h
    rw [List.length_cons, List.length_cons, ih hothers]

/-- Joins are equivalent if nothing is different, neither the columns nor anything below. -/
theorem Join.equivalent_eq_ok_true_iff_step : a.equivalent catalog b = .ok true ↔
    a.sameNode b = true ∧ Join.allEquivalent catalog a.joins b.joins = .ok true ∧
      ∃ names, a.expandedSelect catalog = .ok names ∧ b.expandedSelect catalog = .ok names := by
  obtain ⟨ta, va, sa, ca, oa, as⟩ := a
  obtain ⟨tb, vb, sb, cb, ob, bs⟩ := b
  rw [equivalent]
  constructor
  · intro h
    split_ifs at h with hsame
    · obtain ⟨names, hnames, h⟩ := bind_eq_ok_iff.mp h
      obtain ⟨others, hothers, h⟩ := bind_eq_ok_iff.mp h
      split_ifs at h with hselect
      · subst hselect
        exact ⟨hsame, h, names, hnames, hothers⟩
      · cases h
    · cases h
  · rintro ⟨hsame, hbelow, names, hnames, hothers⟩
    rw [if_pos hsame, hnames, hothers, ok_bind_eq, ok_bind_eq, if_pos rfl, hbelow]

theorem Join.allEquivalent_cons_eq_ok_true_iff {as bs : List Join} :
    Join.allEquivalent catalog (a :: as) (b :: bs) = .ok true ↔
      a.equivalent catalog b = .ok true ∧ Join.allEquivalent catalog as bs = .ok true := by
  rw [allEquivalent]
  constructor
  · intro h
    obtain ⟨first, hfirst, h⟩ := bind_eq_ok_iff.mp h
    split_ifs at h with htrue
    · subst htrue
      exact ⟨hfirst, h⟩
    · cases h
  · rintro ⟨hfirst, hrest⟩
    rw [hfirst, ok_bind_eq, if_pos rfl, hrest]

mutual

/-- **Equivalent joins are written out as the same one.** -/
theorem Join.equivalent_eq_ok_true_iff : ∀ {a b : Join}, a.equivalent catalog b = .ok true ↔
    ∃ written, a.writeOut catalog = .ok written ∧ b.writeOut catalog = .ok written
  | ⟨ta, va, sa, ca, oa, as⟩, ⟨tb, vb, sb, cb, ob, bs⟩ => by
    simp only [equivalent_eq_ok_true_iff_step, writeOut_eq_ok_iff, sameNode_iff]
    constructor
    · rintro ⟨⟨rfl, rfl, rfl, rfl, hlength⟩, hbelow, names, hA, hB⟩
      obtain ⟨below, has, hbs⟩ := (Join.allEquivalent_eq_ok_true_iff hlength).mp hbelow
      exact ⟨_, ⟨names, below, hA, has, rfl⟩, names, below, hB, hbs, rfl⟩
    · rintro ⟨_, ⟨names, below, hA, has, rfl⟩, others, below', hB, hbs, hwritten⟩
      cases hwritten
      have hlength : as.length = bs.length := by
        rw [← length_of_writeOutAll has, ← length_of_writeOutAll hbs]
      exact ⟨⟨rfl, rfl, rfl, rfl, hlength⟩,
        (Join.allEquivalent_eq_ok_true_iff hlength).mpr ⟨below, has, hbs⟩, names, hA, hB⟩

theorem Join.allEquivalent_eq_ok_true_iff : ∀ {as bs : List Join}, as.length = bs.length →
    (Join.allEquivalent catalog as bs = .ok true ↔
      ∃ written, Join.writeOutAll catalog as = .ok written ∧
        Join.writeOutAll catalog bs = .ok written)
  | [], [], _ => ⟨fun _ => ⟨[], rfl, rfl⟩, fun _ => rfl⟩
  | a :: as, b :: bs, hlength => by
    rw [allEquivalent_cons_eq_ok_true_iff, Join.equivalent_eq_ok_true_iff,
      Join.allEquivalent_eq_ok_true_iff (Nat.succ.inj hlength)]
    simp only [writeOutAll_cons_eq_ok_iff]
    constructor
    · rintro ⟨⟨first, ha, hb⟩, others, has, hbs⟩
      exact ⟨_, ⟨first, others, ha, has, rfl⟩, first, others, hb, hbs, rfl⟩
    · rintro ⟨_, ⟨first, others, ha, has, rfl⟩, first', others', hb, hbs, hwritten⟩
      cases hwritten
      exact ⟨⟨first, ha, hb⟩, others, has, hbs⟩

end

/-- Joins that are written out as the same one as a third are written out as the same one. -/
theorem Join.equivalent_trans (hab : a.equivalent catalog b = .ok true)
    (hbc : b.equivalent catalog c = .ok true) : a.equivalent catalog c = .ok true := by
  obtain ⟨written, ha, hb⟩ := equivalent_eq_ok_true_iff.mp hab
  obtain ⟨written', hb', hc⟩ := equivalent_eq_ok_true_iff.mp hbc
  cases hb.symm.trans hb'
  exact equivalent_eq_ok_true_iff.mpr ⟨written, ha, hc⟩

/-! ### Comparing a join with itself -/

mutual

/-- **Comparing a join with itself** finds no difference. All it does is to expand the selections,
each before those of the joins below. -/
theorem Join.equivalent_self : ∀ a : Join, a.equivalent catalog a =
    (a.preOrder.mapM (Join.expandedSelect catalog)).map fun _ => true
  | ⟨table, via, select, condition, orderBy, joins⟩ => by
    rw [equivalent, if_pos (sameNode_iff.mpr ⟨rfl, rfl, rfl, rfl, rfl⟩), preOrder_eq,
      List.mapM_cons, Join.allEquivalent_self joins]
    cases Join.expandedSelect catalog ⟨table, via, select, condition, orderBy, joins⟩ with
    | error e => rfl
    | ok names =>
      rw [ok_bind_eq, ok_bind_eq, ok_bind_eq, if_pos rfl, map_bind_eq]
      rfl

theorem Join.allEquivalent_self : ∀ as : List Join, Join.allEquivalent catalog as as =
    ((Join.preOrderAll as).mapM (Join.expandedSelect catalog)).map fun _ => true
  | [] => rfl
  | a :: as => by
    rw [allEquivalent, preOrderAll, List.mapM_append, Join.equivalent_self a,
      Join.allEquivalent_self as, bind_map_eq, map_bind_eq]
    refine bind_congr fun _ => ?_
    rw [if_pos rfl, map_bind_eq]
    rfl

end

/-- The selection of a join can be expanded: if it selects all columns, its table is found. -/
def Join.Expandable (catalog : Catalog) (join : Join) : Prop :=
  join.select = .all → ∃ table, catalog.findTable join.table = .ok table

theorem Join.exists_expandedSelect_iff {join : Join} :
    (∃ names, join.expandedSelect catalog = .ok names) ↔ join.Expandable catalog := by
  rw [expandedSelect, Expandable]
  cases join.select with
  | all =>
    simp only [map_eq_ok_iff, true_imp_iff]
    constructor
    · rintro ⟨_, table, htable, -⟩
      exact ⟨table, htable⟩
    · rintro ⟨table, htable⟩
      exact ⟨_, table, htable, rfl⟩
  | columns names => simp

/-- Where names stay apart, a table is found if it is listed. -/
theorem Join.expandable_iff (hu : catalog.Unambiguous) {join : Join} :
    join.Expandable catalog ↔ (join.select = .all → catalog.HasTable join.table) := by
  rw [Expandable, hu.exists_findTable_iff]

theorem Join.equivalent_self_eq_ok_true_iff :
    a.equivalent catalog a = .ok true ↔ ∀ join ∈ a.preOrder, join.Expandable catalog := by
  rw [equivalent_self, map_eq_ok_iff]
  simp only [and_true, exists_mapM_eq_ok_iff, exists_expandedSelect_iff]

/-- A join that is not equivalent to itself has a first selection that cannot be expanded. -/
theorem Join.equivalent_self_eq_error_iff {e : QueryError} :
    a.equivalent catalog a = .error e ↔ ∃ front join rest, a.preOrder = front ++ join :: rest ∧
      (∀ earlier ∈ front, earlier.Expandable catalog) ∧
      join.select = .all ∧ catalog.findTable join.table = .error e := by
  rw [equivalent_self, map_eq_error_iff, mapM_eq_error_iff]
  simp only [exists_expandedSelect_iff, expandedSelect_eq_error_iff]

/-! ### Queries -/

/-- **The laws of an equivalence.** The sides can be swapped, and a query in the middle can be left
out. A query is equivalent to itself if all its selections can be expanded, and there is an error if
one of them cannot. Where names stay apart, that is to say that the tables are in the catalog of
which all columns are selected. -/
theorem Query.equivalent_laws (catalog : Catalog) (a b c : Query) :
    a.equivalent catalog b = b.equivalent catalog a ∧
    (a.equivalent catalog b = .ok true → b.equivalent catalog c = .ok true →
      a.equivalent catalog c = .ok true) ∧
    (a.equivalent catalog a = .ok true ↔ ∀ join ∈ a.base.preOrder, join.Expandable catalog) ∧
    (∀ e, a.equivalent catalog a = .error e ↔ ∃ front join rest,
      a.base.preOrder = front ++ join :: rest ∧ (∀ earlier ∈ front, earlier.Expandable catalog) ∧
      join.select = .all ∧ catalog.findTable join.table = .error e) ∧
    (a.equivalent catalog a = .ok true ∨ ∃ e, a.equivalent catalog a = .error e) ∧
    (catalog.Unambiguous → (a.equivalent catalog a = .ok true ↔
      ∀ join ∈ a.base.preOrder, join.select = .all → catalog.HasTable join.table)) := by
  refine ⟨Join.equivalent_comm a.base b.base, Join.equivalent_trans,
    Join.equivalent_self_eq_ok_true_iff, fun e => Join.equivalent_self_eq_error_iff, ?_, ?_⟩
  · rw [equivalent, Join.equivalent_self]
    cases a.base.preOrder.mapM (Join.expandedSelect catalog) with
    | ok selects => exact .inl rfl
    | error e => exact .inr ⟨e, rfl⟩
  · intro hu
    rw [equivalent, Join.equivalent_self_eq_ok_true_iff]
    exact forall₂_congr fun join _ => Join.expandable_iff hu

theorem equivalent_listedParcelsOfSome :
    (parcelsOfSome ["1", "2"]).equivalent shop (listedParcelsOfSome ["1", "2"] (some 5)) =
        .ok true ∧
      (listedParcelsOfSome ["1", "2"] (some 5)).equivalent shop (parcelsOfSome ["1", "2"]) =
        .ok true ∧
      (parcelsOfSome ["1", "2"]).equivalent shop (listedParcelsOfSome ["1", "2"] none) =
        .ok true ∧
      shop.Unambiguous ∧ ∀ join ∈ (parcelsOfSome ["1", "2"]).base.preOrder,
        join.select = .all → shop.HasTable join.table := by
  have hlisted : (parcelsOfSome ["1", "2"]).equivalent shop
      (listedParcelsOfSome ["1", "2"] (some 5)) = .ok true := by
    decide +kernel
  have hlimit : (listedParcelsOfSome ["1", "2"] (some 5)).equivalent shop
      (listedParcelsOfSome ["1", "2"] none) = .ok true := by
    decide +kernel
  have hshop : shop.Unambiguous := Catalog.unambiguous_assemble shopColumns shopKeys
  obtain ⟨hswap, htrans, -, -, -, hself⟩ := Query.equivalent_laws shop (parcelsOfSome ["1", "2"])
    (listedParcelsOfSome ["1", "2"] (some 5)) (listedParcelsOfSome ["1", "2"] none)
  refine ⟨hlisted, hswap ▸ hlisted, htrans hlisted hlimit, hshop, (hself hshop).mp ?_⟩
  decide +kernel

end JoinPlan
