/-!
# The cost of a path

A path costs as many hops as it has links. Among paths of equally many hops the penalties decide,
which add up along the path from left to right.

What a penalty is stays open: a type with a zero, an addition and a comparison. Doubles are the
penalties in use; they need not obey the laws of addition.

## Main definitions

* `Penalty`: what penalties can do.
* `Cost`, `Cost.lt`: hops and penalty, compared in this order.
* `Cost.add`: the sum of two costs, whose hops fit a word of 64 bits.
* `Cost.extend`: the cost of a path with one more link.

## Implementation notes

Any two costs can be added, so their hops can go beyond a word, and wrap around. A path is extended
link by link and has fewer links than its graph has tables, so no word is ever filled that way:
`extend` counts in the natural numbers, and `extend_eq_add` says when it agrees with `add`.
-/

namespace JoinPlan

/-- Penalties can be added up and compared. -/
class Penalty (P : Type) where
  /-- The penalty of a path without links. -/
  zero : P
  /-- The penalty of a path with one more link. -/
  add : P → P → P
  /-- The first penalty is smaller. -/
  lt : P → P → Bool

instance : Penalty Float where
  zero := 0.0
  add := (· + ·)
  lt a b := a < b

instance : Penalty Nat where
  zero := 0
  add := (· + ·)
  lt a b := a < b

/-- The cost of a path. -/
structure Cost (P : Type) where
  hops : Nat
  penalty : P
  deriving DecidableEq, Repr

namespace Cost

variable {P : Type} [Penalty P]

/-- The cost of a path without links. -/
def zero : Cost P := ⟨0, Penalty.zero⟩

/-- One more than the greatest number of hops that a word of 64 bits holds. -/
def hopLimit : Nat := Nat.pow 2 64

/-- The sum of two costs. Hops that go beyond a word start again at zero. -/
def add (a b : Cost P) : Cost P :=
  ⟨(a.hops + b.hops) % hopLimit, Penalty.add a.penalty b.penalty⟩

/-- The cost of a path with one more link. -/
def extend (cost : Cost P) (penalty : P) : Cost P :=
  ⟨cost.hops + 1, Penalty.add cost.penalty penalty⟩

/-- The first cost is smaller: fewer hops, or as many and a smaller penalty. -/
def lt (a b : Cost P) : Bool :=
  a.hops < b.hops || (a.hops = b.hops && Penalty.lt a.penalty b.penalty)

@[simp] theorem hops_zero : (zero : Cost P).hops = 0 := rfl

@[simp] theorem hops_extend (cost : Cost P) (penalty : P) :
    (cost.extend penalty).hops = cost.hops + 1 := rfl

@[simp] theorem penalty_extend (cost : Cost P) (penalty : P) :
    (cost.extend penalty).penalty = Penalty.add cost.penalty penalty := rfl

theorem extend_eq_add {cost : Cost P} (penalty : P) (h : cost.hops + 1 < hopLimit) :
    cost.extend penalty = cost.add ⟨1, penalty⟩ := by
  simp only [extend, add, Nat.mod_eq_of_lt h]

theorem hops_le_of_lt {a b : Cost P} (h : a.lt b = true) : a.hops ≤ b.hops := by
  simp only [lt, Bool.or_eq_true, decide_eq_true_eq, Bool.and_eq_true] at h
  omega

end Cost

end JoinPlan
