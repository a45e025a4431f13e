import Mathlib.Data.List.Forall2

/-!
# Outcomes of steps

A computation that can fail is a sequence of steps, and what is known of the whole is put together
from what is known of the steps: what they return if it succeeds, and which errors they can end with
if it does not.

## Main definitions

* `FailsWith`: every error of an outcome is of a kind.
* `AgreeUpTo`: two outcomes are the same error, or results that are related.

## Main results

* `bind_eq_ok_iff`, `mapM_eq_ok_iff`: a sequence succeeds when every step does.
* `bind_eq_error_iff`, `mapM_eq_error_iff`: it fails with the first error of a step.
* `bind_map_eq`, `map_bind_eq`, `map_eq_map_map`, `mapM_map_eq`: what is done to a result may be
  done sooner or later.
* `exists_of_mem_mapM`: what it returns then was returned by a step.
* `exists_bind_eq_ok_iff`, `exists_mapM_eq_ok_iff`, `mapM_ite_eq_ok_iff`: when that is, if what the
  steps return does not matter or is known.
* `bind_congr_of_ok`, `mapM_congr`: only what is done to actual results and elements matters.
* `getElem?_of_forall₂`, `map_eq_map_of_forall₂`, `mapM_eq_mapM_of_forall₂`,
  `forall_iff_of_forall₂`, `exists_iff_of_forall₂`: what carries over from the elements of a
  sequence to what they return.
* `FailsWith.bind`, `FailsWith.mapM`: a sequence fails with the errors of its steps.
* `FailsWith.bind_eq_error_iff`, `FailsWith.bind_eq_error_iff_left`: so an error that only one of
  its steps can end with is one of that step.
* `AgreeUpTo.bind`, `AgreeUpTo.bind_eq`: sequences agree if their steps do.
-/

namespace JoinPlan

variable {ε α β : Type}

theorem bind_eq_ok_iff {x : Except ε α} {f : α → Except ε β} {b : β} :
    x >>= f = .ok b ↔ ∃ a, x = .ok a ∧ f a = .ok b := by
  cases x <;> simp [bind, Except.bind]

theorem bind_eq_error_iff {x : Except ε α} {f : α → Except ε β} {e : ε} :
    x >>= f = .error e ↔ x = .error e ∨ ∃ a, x = .ok a ∧ f a = .error e := by
  cases x <;> simp [bind, Except.bind]

theorem ok_bind_eq {a : α} {f : α → Except ε β} : (.ok a : Except ε α) >>= f = f a :=
  rfl

theorem pure_eq_ok_iff {a b : α} : (pure a : Except ε α) = .ok b ↔ a = b := by
  simp [pure, Except.pure]

theorem map_eq_ok_iff {x : Except ε α} {f : α → β} {b : β} :
    x.map f = .ok b ↔ ∃ a, x = .ok a ∧ f a = b := by
  cases x <;> simp [Except.map]

theorem map_eq_error_iff {x : Except ε α} {f : α → β} {e : ε} :
    x.map f = .error e ↔ x = .error e := by
  cases x <;> simp [Except.map]

theorem bind_map_eq {γ : Type} {x : Except ε α} {f : α → β} {g : β → Except ε γ} :
    x.map f >>= g = x >>= fun a => g (f a) := by
  cases x <;> rfl

/-- Only what is done to the actual result matters. -/
theorem bind_congr_of_ok {x : Except ε α} {f g : α → Except ε β} (h : ∀ a, x = .ok a → f a = g a) :
    x >>= f = x >>= g := by
  cases x with
  | error e => rfl
  | ok a => exact h a rfl

theorem map_bind_eq {γ : Type} {x : Except ε α} {f : α → Except ε β} {g : β → γ} :
    (x >>= f).map g = x >>= fun a => (f a).map g := by
  cases x <;> rfl

/-- What is made of a result can be made of another one that it is turned into first. -/
theorem map_eq_map_map {γ : Type} {x : Except ε α} {f : α → γ} {g : α → β} {f' : β → γ}
    (h : ∀ a, x = .ok a → f a = f' (g a)) : x.map f = (x.map g).map f' := by
  cases x with
  | error e => rfl
  | ok a => exact congrArg Except.ok (h a rfl)

theorem mapM_map_eq {γ : Type} {f : α → Except ε β} {g : β → γ} {xs : List α} :
    xs.mapM (fun x => (f x).map g) = (xs.mapM f).map (List.map g) := by
  induction xs with
  | nil => rfl
  | cons x xs ih =>
    rw [List.mapM_cons, List.mapM_cons, bind_map_eq, map_bind_eq, ih]
    simp only [bind_map_eq, map_bind_eq]
    rfl

theorem mapM_eq_ok_iff {f : α → Except ε β} {xs : List α} {ys : List β} :
    xs.mapM f = .ok ys ↔ List.Forall₂ (fun x y => f x = .ok y) xs ys := by
  induction xs generalizing ys with
  | nil => rw [List.mapM_nil, pure_eq_ok_iff, List.forall₂_nil_left_iff, eq_comm]
  | cons x xs ih =>
    rw [List.mapM_cons, bind_eq_ok_iff, List.forall₂_cons_left_iff]
    simp only [bind_eq_ok_iff, pure_eq_ok_iff, ih]
    constructor
    · rintro ⟨y, hy, rest, hrest, rfl⟩
      exact ⟨y, rest, hy, hrest, rfl⟩
    · rintro ⟨y, rest, hy, hrest, rfl⟩
      exact ⟨y, hy, rest, hrest, rfl⟩

/-- What a sequence returns was returned by one of its steps. -/
theorem exists_of_mem_mapM {f : α → Except ε β} {xs : List α} {ys : List β}
    (h : xs.mapM f = .ok ys) {y : β} (hy : y ∈ ys) : ∃ x ∈ xs, f x = .ok y := by
  replace h := mapM_eq_ok_iff.mp h
  induction h with
  | nil => cases hy
  | cons hfirst _ ih =>
    rcases List.mem_cons.mp hy with rfl | hrest
    · exact ⟨_, List.mem_cons_self, hfirst⟩
    · obtain ⟨x, hx, hfx⟩ := ih hrest
      exact ⟨x, List.mem_cons_of_mem _ hx, hfx⟩

/-- Whether a sequence succeeds is a question of each step. -/
theorem exists_bind_eq_ok_iff {x : Except ε α} {f : α → Except ε β} :
    (∃ b, x >>= f = .ok b) ↔ ∃ a, x = .ok a ∧ ∃ b, f a = .ok b := by
  simp only [bind_eq_ok_iff]
  constructor
  · rintro ⟨b, a, ha, hb⟩
    exact ⟨a, ha, b, hb⟩
  · rintro ⟨a, ha, b, hb⟩
    exact ⟨b, a, ha, hb⟩

theorem exists_mapM_eq_ok_iff {f : α → Except ε β} {xs : List α} :
    (∃ ys, xs.mapM f = .ok ys) ↔ ∀ x ∈ xs, ∃ y, f x = .ok y := by
  induction xs with
  | nil => simp [pure_eq_ok_iff]
  | cons x xs ih =>
    simp only [List.mapM_cons, exists_bind_eq_ok_iff, pure_eq_ok_iff, List.forall_mem_cons, ← ih]
    constructor
    · rintro ⟨y, hy, ys, hys, -⟩
      exact ⟨⟨y, hy⟩, ys, hys⟩
    · rintro ⟨⟨y, hy⟩, ys, hys⟩
      exact ⟨y, hy, ys, hys, _, rfl⟩

/-- A sequence fails at the first step that does. -/
theorem mapM_eq_error_iff {f : α → Except ε β} {xs : List α} {e : ε} :
    xs.mapM f = .error e ↔ ∃ front x rest, xs = front ++ x :: rest ∧
      (∀ earlier ∈ front, ∃ y, f earlier = .ok y) ∧ f x = .error e := by
  induction xs with
  | nil => simp [pure, Except.pure]
  | cons x xs ih =>
    have hlast : ∀ y, (xs.mapM f >>= fun ys => pure (y :: ys)) = .error e ↔
        xs.mapM f = .error e :=
      fun y => by cases xs.mapM f <;> simp [bind, Except.bind, pure, Except.pure]
    simp only [List.mapM_cons, bind_eq_error_iff (x := f x), hlast, ih]
    constructor
    · rintro (hx | ⟨y, hy, front, z, rest, rfl, hfront, hz⟩)
      · exact ⟨[], x, xs, rfl, by simp, hx⟩
      · exact ⟨x :: front, z, rest, rfl, List.forall_mem_cons.mpr ⟨⟨y, hy⟩, hfront⟩, hz⟩
    · rintro ⟨front, z, rest, hsplit, hfront, hz⟩
      rcases List.cons_eq_append_iff.mp hsplit with ⟨rfl, hxs⟩ | ⟨front', rfl, rfl⟩
      · cases hxs
        exact .inl hz
      · obtain ⟨⟨y, hy⟩, hfront⟩ := List.forall_mem_cons.mp hfront
        exact .inr ⟨y, hy, front', z, rest, rfl, hfront, hz⟩

/-- A sequence of checks passes if every element does. -/
theorem mapM_ite_eq_ok_iff {p : α → Bool} {g : α → β} {e : α → ε} {xs : List α} {ys : List β} :
    xs.mapM (fun x => if p x then Except.ok (g x) else .error (e x)) = .ok ys ↔
      (∀ x ∈ xs, p x = true) ∧ ys = xs.map g := by
  induction xs generalizing ys with
  | nil =>
    rw [List.mapM_nil, pure_eq_ok_iff, eq_comm]
    simp
  | cons x xs ih =>
    rw [List.mapM_cons, bind_eq_ok_iff]
    simp only [bind_eq_ok_iff, pure_eq_ok_iff, ih, List.forall_mem_cons, List.map_cons]
    cases hp : p x with
    | false => simp
    | true =>
      simp only [if_true, Except.ok.injEq, true_and]
      constructor
      · rintro ⟨_, rfl, _, ⟨hall, rfl⟩, rfl⟩
        exact ⟨hall, rfl⟩
      · rintro ⟨hall, rfl⟩
        exact ⟨_, rfl, _, ⟨hall, rfl⟩, rfl⟩

/-! ### Lists side by side -/

section

variable {R : α → β → Prop} {xs : List α} {ys : List β}

theorem getElem?_of_forall₂ (h : List.Forall₂ R xs ys) {i : Nat} {x : α} (hx : xs[i]? = some x) :
    ∃ y, ys[i]? = some y ∧ R x y := by
  obtain ⟨hlt, rfl⟩ := List.getElem?_eq_some_iff.mp hx
  have hlt' : i < ys.length := h.length_eq ▸ hlt
  exact ⟨ys[i], List.getElem?_eq_getElem hlt', h.get hlt hlt'⟩

theorem map_eq_map_of_forall₂ {γ : Type} {f : α → γ} {g : β → γ} (h : List.Forall₂ R xs ys)
    (hsame : ∀ x y, R x y → f x = g y) : xs.map f = ys.map g := by
  induction h with
  | nil => rfl
  | cons hfirst _ ih => rw [List.map_cons, List.map_cons, hsame _ _ hfirst, ih]

theorem mapM_eq_mapM_of_forall₂ {γ : Type} {f : α → Except ε γ} {g : β → Except ε γ}
    (h : List.Forall₂ R xs ys) (hsame : ∀ x y, R x y → f x = g y) : xs.mapM f = ys.mapM g := by
  induction h with
  | nil => rfl
  | cons hfirst _ ih => rw [List.mapM_cons, List.mapM_cons, hsame _ _ hfirst, ih]

theorem mapM_congr {γ : Type} {f g : α → Except ε γ} (h : ∀ x ∈ xs, f x = g x) :
    xs.mapM f = xs.mapM g :=
  mapM_eq_mapM_of_forall₂ (List.forall₂_same.mpr h) fun _ _ heq => heq

theorem forall_iff_of_forall₂ {p : α → Prop} {q : β → Prop} (h : List.Forall₂ R xs ys)
    (hsame : ∀ x y, R x y → (p x ↔ q y)) : (∀ x ∈ xs, p x) ↔ ∀ y ∈ ys, q y := by
  induction h with
  | nil => simp
  | cons hfirst _ ih => rw [List.forall_mem_cons, List.forall_mem_cons, hsame _ _ hfirst, ih]

theorem exists_iff_of_forall₂ {p : α → Prop} {q : β → Prop} (h : List.Forall₂ R xs ys)
    (hsame : ∀ x y, R x y → (p x ↔ q y)) : (∃ x ∈ xs, p x) ↔ ∃ y ∈ ys, q y := by
  induction h with
  | nil => simp
  | cons hfirst _ ih =>
    rw [List.exists_mem_cons_iff, List.exists_mem_cons_iff, hsame _ _ hfirst, ih]

end

/-! ### Errors -/

/-- Whatever error an outcome is, it is of a kind. -/
def FailsWith (kind : ε → Prop) (x : Except ε α) : Prop :=
  ∀ e, x = .error e → kind e

namespace FailsWith

variable {kind : ε → Prop}

theorem ok (a : α) : FailsWith kind (.ok a : Except ε α) :=
  fun _ h => by cases h

theorem error {e : ε} (h : kind e) : FailsWith kind (.error e : Except ε α) := by
  rintro _ ⟨⟩
  exact h

theorem bind {x : Except ε α} {f : α → Except ε β} (hx : FailsWith kind x)
    (hf : ∀ a, x = .ok a → FailsWith kind (f a)) : FailsWith kind (x >>= f) := by
  cases x with
  | error e => exact error (hx e rfl)
  | ok a => exact hf a rfl

theorem map {x : Except ε α} {f : α → β} (hx : FailsWith kind x) :
    FailsWith kind (x.map f) := by
  cases x with
  | error e => exact error (hx e rfl)
  | ok a => exact ok (f a)

theorem mapM {f : α → Except ε β} {xs : List α} (h : ∀ x ∈ xs, FailsWith kind (f x)) :
    FailsWith kind (xs.mapM f) := by
  induction xs with
  | nil => exact ok []
  | cons x xs ih =>
    rw [List.mapM_cons]
    refine (h x List.mem_cons_self).bind fun y _ => ?_
    exact (ih fun z hz => h z (List.mem_cons_of_mem _ hz)).bind fun ys _ => ok (y :: ys)

section

variable {x : Except ε α} {e : ε}

theorem ne_error (h : FailsWith (· ≠ e) x) : x ≠ .error e :=
  fun hx => h e hx rfl

/-- An error that the first step does not end with is one of what follows. -/
theorem bind_eq_error_iff {f : α → Except ε β} (h : FailsWith (· ≠ e) x) :
    x >>= f = .error e ↔ ∃ a, x = .ok a ∧ f a = .error e := by
  rw [JoinPlan.bind_eq_error_iff, or_iff_right h.ne_error]

/-- An error that nothing which follows ends with is one of the first step. -/
theorem bind_eq_error_iff_left {f : α → Except ε β} (h : ∀ a, FailsWith (· ≠ e) (f a)) :
    x >>= f = .error e ↔ x = .error e := by
  rw [JoinPlan.bind_eq_error_iff, or_iff_left]
  rintro ⟨a, -, hfails⟩
  exact (h a).ne_error hfails

end

end FailsWith

/-! ### Outcomes side by side -/

/-- Two outcomes are the same error, or results that are related. -/
inductive AgreeUpTo (R : α → β → Prop) : Except ε α → Except ε β → Prop
  | ok {a : α} {b : β} (h : R a b) : AgreeUpTo R (.ok a) (.ok b)
  | error (e : ε) : AgreeUpTo R (.error e) (.error e)

namespace AgreeUpTo

variable {γ δ : Type} {R : α → β → Prop} {S : γ → δ → Prop} {x : Except ε α} {y : Except ε β}

theorem bind {f : α → Except ε γ} {g : β → Except ε δ} (h : AgreeUpTo R x y)
    (hstep : ∀ a b, R a b → AgreeUpTo S (f a) (g b)) : AgreeUpTo S (x >>= f) (y >>= g) := by
  cases h with
  | ok hresults => exact hstep _ _ hresults
  | error e => exact error e

/-- After the same step, what follows has to agree for every result of it. -/
theorem bind_same {f : α → Except ε γ} {g : α → Except ε δ}
    (hstep : ∀ a, AgreeUpTo S (f a) (g a)) : AgreeUpTo S (x >>= f) (x >>= g) := by
  cases x with
  | ok a => exact hstep a
  | error e => exact error e

/-- What follows from related results may come to the same. -/
theorem bind_eq {f : α → Except ε γ} {g : β → Except ε γ} (h : AgreeUpTo R x y)
    (hstep : ∀ a b, R a b → f a = g b) : x >>= f = y >>= g := by
  cases h with
  | ok hresults => exact hstep _ _ hresults
  | error e => rfl

end AgreeUpTo

end JoinPlan
