import JoinPlan.Proofs.LeastPenalty
import JoinPlan.Proofs.SharedPairs
import Mathlib.Algebra.Order.Field.Basic
import Mathlib.Algebra.Order.Field.Rat

/-!
# Penalties lie between zero and one, in either direction

The penalty of a link is a double. What is rounded to it is a fraction that keeps to its bounds:
names share no more pairs than they have, and all of them only if they have the same pairs equally
often. Such names need not be the same.

Neither how many pairs are shared nor how many there are depends on which name comes first. So a
key that is recorded at its other end, or a later key between the same tables, sets the same
penalty again, and a link can be priced by its ends alone.

## Main definitions

* `Overlap.ratio`, `Likeness.ratio`: how alike names are, before rounding.
* `Likeness.gap`: how far they are from being alike.
* `Overlap.Measures`: a fraction is what two names share.
* `JoinGraph.PricedBy`: every link has the penalty of its ends.
* `JoinGraph.PricesByName`: the penalty of a link comes from the names of its tables.

## Main results

* `measures_overlap`: the fraction of two names with pairs.
* `likeness_comm`, `gap_likeness_nonneg`, `gap_likeness_le_one`: the same for all names.
* `JoinGraph.PricedBy.connect`, `JoinGraph.pricedBy_ofCatalog`: keys price links by their ends.
* `JoinGraph.measuredPenalties_ofNames`: the shared pairs of any two names, and the penalties of the
  links of a graph.
-/

namespace JoinPlan

/-! ### The fraction of shared pairs -/

/-- The fraction of pairs that are shared, where each shared pair counts in both names. -/
def Overlap.ratio (o : Overlap) : ℚ :=
  2 * o.shared / o.total

@[simp] theorem shared_overlap (a b : List Char) :
    (overlap a b).shared = sharedCount (pairs a) (pairs b) := rfl

@[simp] theorem total_overlap (a b : List Char) :
    (overlap a b).total = (a.length - 1) + (b.length - 1) := rfl

theorem overlap_comm (a b : List Char) : overlap a b = overlap b a := by
  rw [overlap, overlap, sharedCount_comm, Nat.add_comm]

theorem two_mul_shared_le_total (a b : List Char) :
    2 * (overlap a b).shared ≤ (overlap a b).total := by
  have hleft := sharedCount_le_left (pairs a) (pairs b)
  have hright := sharedCount_le_right (pairs a) (pairs b)
  rw [length_pairs] at hleft hright
  rw [shared_overlap, total_overlap]
  omega

theorem ratio_overlap_nonneg (a b : List Char) : 0 ≤ (overlap a b).ratio :=
  div_nonneg (mul_nonneg zero_le_two (Nat.cast_nonneg _)) (Nat.cast_nonneg _)

theorem ratio_overlap_le_one (a b : List Char) : (overlap a b).ratio ≤ 1 := by
  refine div_le_one_of_le₀ ?_ (Nat.cast_nonneg _)
  exact_mod_cast two_mul_shared_le_total a b

/-- The fraction is what two names share. -/
structure Overlap.Measures (o : Overlap) (a b : List Char) : Prop where
  /-- Every pair is shared as often as both names have it. -/
  shared : o.shared = ∑ᶠ pair, min ((pairs a).count pair) ((pairs b).count pair)
  total : o.total = (a.length - 1) + (b.length - 1)
  total_pos : 0 < o.total
  nonneg : 0 ≤ o.ratio
  le_one : o.ratio ≤ 1
  /-- The names are fully alike if they have the same pairs equally often. -/
  eq_one_iff : o.ratio = 1 ↔ (pairs a : Multiset (Char × Char)) = pairs b

/-- **What two names with pairs share** is a fraction of what they have. -/
theorem measures_overlap {a b : List Char} (ha : 2 ≤ a.length) :
    (overlap a b).Measures a b where
  shared := sharedCount_eq_finsum _ _
  total := rfl
  total_pos := by
    rw [total_overlap]
    omega
  nonneg := ratio_overlap_nonneg a b
  le_one := ratio_overlap_le_one a b
  eq_one_iff := by
    have htotal : ((overlap a b).total : ℚ) ≠ 0 := by
      rw [total_overlap, Nat.cast_ne_zero]
      omega
    rw [Overlap.ratio, div_eq_one_iff_eq htotal, ← two_mul_sharedCount_eq_iff, length_pairs,
      length_pairs]
    norm_cast

/-! ### Names -/

namespace Likeness

/-- A likeness before it is rounded. -/
def ratio : Likeness → ℚ
  | same => 1
  | short => 0
  | sharing o => o.ratio

/-- How far names are from being alike, before it is rounded. -/
def gap (l : Likeness) : ℚ :=
  1 - l.ratio

end Likeness

/-- Names of which one has no pairs are told apart before anything is counted. -/
theorem likeness_cases (a b : String) :
    likeness a b = .same ∨ likeness a b = .short ∨
      likeness a b = .sharing (overlap (Text.withoutBlanks a) (Text.withoutBlanks b)) := by
  rw [likeness]
  split_ifs
  · exact .inl rfl
  · exact .inr (.inl rfl)
  · exact .inr (.inr rfl)

theorem likeness_eq_sharing {a b : String} (hne : Text.withoutBlanks a ≠ Text.withoutBlanks b)
    (ha : 2 ≤ (Text.withoutBlanks a).length) (hb : 2 ≤ (Text.withoutBlanks b).length) :
    likeness a b = .sharing (overlap (Text.withoutBlanks a) (Text.withoutBlanks b)) := by
  simp [likeness, hne, Nat.not_lt.mpr ha, Nat.not_lt.mpr hb]

/-- **Which name comes first does not matter.** -/
theorem likeness_comm (a b : String) : likeness a b = likeness b a := by
  simp only [likeness, eq_comm (a := Text.withoutBlanks a), Bool.or_comm, overlap_comm]

theorem ratio_likeness_nonneg (a b : String) : 0 ≤ (likeness a b).ratio := by
  rcases likeness_cases a b with h | h | h
  · rw [h]
    exact zero_le_one
  · rw [h]
    exact le_rfl
  · rw [h]
    exact ratio_overlap_nonneg _ _

theorem ratio_likeness_le_one (a b : String) : (likeness a b).ratio ≤ 1 := by
  rcases likeness_cases a b with h | h | h
  · rw [h]
    exact le_rfl
  · rw [h]
    exact zero_le_one
  · rw [h]
    exact ratio_overlap_le_one _ _

theorem gap_likeness_nonneg (a b : String) : 0 ≤ (likeness a b).gap :=
  sub_nonneg.mpr (ratio_likeness_le_one a b)

theorem gap_likeness_le_one (a b : String) : (likeness a b).gap ≤ 1 :=
  sub_le_self 1 (ratio_likeness_nonneg a b)

theorem namePenalty_comm (a b : TableRef) : namePenalty a b = namePenalty b a := by
  rw [namePenalty, namePenalty, nameSimilarity, nameSimilarity, likeness_comm]

/-! ### Links -/

section

variable {P : Type} {penalty : TableRef → TableRef → P} {source target : TableRef}

/-- A link that is set is the one that was asked for, or was there before. -/
theorem mem_of_mem_setLink {price : P} {links : List (Link P)} {link : Link P}
    (h : link ∈ setLink source target price links) :
    link ∈ links ∨ link = ⟨source, target, price⟩ := by
  rw [setLink] at h
  split at h
  · obtain ⟨known, hknown, rfl⟩ := List.mem_map.mp h
    split_ifs with hjoins
    · obtain ⟨hsource, htarget⟩ := Prod.mk.inj (Link.joins_iff.mp hjoins)
      exact .inr (by rw [hsource, htarget])
    · exact .inl hknown
  · exact (List.mem_cons.mp h).symm

namespace JoinGraph

variable {graph : JoinGraph P}

/-- Every link has the penalty of its ends. -/
def PricedBy (graph : JoinGraph P) (penalty : TableRef → TableRef → P) : Prop :=
  ∀ link ∈ graph.links, link.penalty = penalty link.source link.target

/-- **A key prices both of its links by their ends** if penalties are the same both ways. -/
theorem PricedBy.connect (h : graph.PricedBy penalty)
    (hcomm : ∀ a b, penalty a b = penalty b a) (source target : TableRef) :
    (graph.connect source target (penalty source target)).PricedBy penalty := by
  rw [JoinGraph.connect]
  split
  · intro link hlink
    rcases mem_of_mem_setLink hlink with hlink | rfl
    · rcases mem_of_mem_setLink hlink with hlink | rfl
      · exact h link hlink
      · rfl
    · exact hcomm source target
  · exact h

theorem pricedBy_ofCatalog (hcomm : ∀ a b, penalty a b = penalty b a) (catalog : Catalog)
    (ignored : List TableRef) : (ofCatalog penalty catalog ignored).PricedBy penalty :=
  List.foldlRecOn (motive := (PricedBy · penalty)) _ _
    (fun _ hlink => absurd hlink List.not_mem_nil) fun _ h _ _ => h.connect hcomm _ _

/-- Every link has one back at the same penalty. -/
theorem mem_links_ofCatalog_symm (hcomm : ∀ a b, penalty a b = penalty b a) {catalog : Catalog}
    {ignored : List TableRef} {link : Link P}
    (h : link ∈ (ofCatalog penalty catalog ignored).links) :
    ⟨link.target, link.source, link.penalty⟩ ∈ (ofCatalog penalty catalog ignored).links := by
  have hpriced := pricedBy_ofCatalog hcomm catalog ignored
  obtain ⟨back, hback, hsource, htarget⟩ :=
    adjacent_iff.mp (adjacent_ofCatalog_symm (adjacent_iff.mpr ⟨link, h, rfl, rfl⟩))
  have hpenalty : back.penalty = link.penalty := by
    rw [hpriced back hback, hpriced link h, hsource, htarget, hcomm]
  rw [← hsource, ← htarget, ← hpenalty]
  exact hback

end JoinGraph

end

/-- The penalty of a link comes from the names of its tables, and is the same on the way back. -/
structure JoinGraph.PricesByName (graph : JoinGraph Float) (link : Link Float) : Prop where
  /-- The penalty is what is missing from the likeness of the names. -/
  penalty : link.penalty = 1.0 - (likeness link.source.table link.target.table).toFloat
  /-- Before rounding it is between zero and one. -/
  gap_nonneg : 0 ≤ (likeness link.source.table link.target.table).gap
  gap_le_one : (likeness link.source.table link.target.table).gap ≤ 1
  /-- Nothing that is rounded depends on the direction. -/
  comm : likeness link.source.table link.target.table =
    likeness link.target.table link.source.table
  back : ⟨link.target, link.source, link.penalty⟩ ∈ graph.links

/-- **Different names share each pair as often as both have it**, which is a fraction of all their
pairs, in whichever order they are given; so every link of the graph of a catalog has a penalty
that is between zero and one before rounding, and a link leads back at the same penalty. -/
theorem JoinGraph.measuredPenalties_ofNames :
    (∀ a b : String, Text.withoutBlanks a ≠ Text.withoutBlanks b →
      2 ≤ (Text.withoutBlanks a).length → 2 ≤ (Text.withoutBlanks b).length →
      ∃ o : Overlap, likeness a b = .sharing o ∧ likeness b a = .sharing o ∧
        o.Measures (Text.withoutBlanks a) (Text.withoutBlanks b)) ∧
    ∀ (catalog : Catalog) (ignored : List TableRef),
      ∀ link ∈ (JoinGraph.ofNames catalog ignored).links,
        (JoinGraph.ofNames catalog ignored).PricesByName link := by
  constructor
  · intro a b hne ha hb
    have hsharing := likeness_eq_sharing hne ha hb
    exact ⟨_, hsharing, (likeness_comm b a).trans hsharing, measures_overlap ha⟩
  · intro catalog ignored link hlink
    constructor
    case penalty => exact pricedBy_ofCatalog namePenalty_comm catalog ignored link hlink
    case gap_nonneg => exact gap_likeness_nonneg _ _
    case gap_le_one => exact gap_likeness_le_one _ _
    case comm => exact likeness_comm _ _
    case back => exact mem_links_ofCatalog_symm namePenalty_comm hlink

/-- Two names that are not the same, with the same pairs equally often, and a link of a graph. -/
theorem measuredPenalties_ledger :
    Text.withoutBlanks "ab aab" ≠ Text.withoutBlanks "aabab" ∧
      2 ≤ (Text.withoutBlanks "ab aab").length ∧ 2 ≤ (Text.withoutBlanks "aabab").length ∧
      (∃ o : Overlap, likeness "ab aab" "aabab" = .sharing o ∧
        likeness "aabab" "ab aab" = .sharing o ∧ 0 < o.total ∧ o.ratio = 1) ∧
      ∃ link ∈ (JoinGraph.ofNames ledger []).links,
        link.source = ⟨"ledger", "customers"⟩ ∧ link.target = ⟨"ledger", "bills"⟩ ∧
          (JoinGraph.ofNames ledger []).PricesByName link := by
  have hne : Text.withoutBlanks "ab aab" ≠ Text.withoutBlanks "aabab" := by decide
  have hleft : 2 ≤ (Text.withoutBlanks "ab aab").length := by decide
  have hright : 2 ≤ (Text.withoutBlanks "aabab").length := by decide
  have hpairs : (pairs (Text.withoutBlanks "ab aab") : Multiset (Char × Char)) =
      pairs (Text.withoutBlanks "aabab") := by decide
  have hadjacent : (JoinGraph.ofNames ledger []).Adjacent ⟨"ledger", "customers"⟩
      ⟨"ledger", "bills"⟩ := by decide +kernel
  obtain ⟨hnames, hlinks⟩ := JoinGraph.measuredPenalties_ofNames
  obtain ⟨o, ho, hswap, hmeasures⟩ := hnames _ _ hne hleft hright
  obtain ⟨link, hlink, hsource, htarget⟩ := JoinGraph.adjacent_iff.mp hadjacent
  exact ⟨hne, hleft, hright,
    ⟨o, ho, hswap, hmeasures.total_pos, hmeasures.eq_one_iff.mpr hpairs⟩,
    link, hlink, hsource, htarget, hlinks ledger [] link hlink⟩

-- one name is the other with one more letter, which adds one pair
example : likeness "customer" "customers" = .sharing ⟨7, 15⟩ := by decide

end JoinPlan
