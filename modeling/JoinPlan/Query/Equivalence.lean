import JoinPlan.Query.Basic

/-!
# Equivalent queries

Two queries are equivalent if their trees agree node by node. Selecting all columns and listing
all columns in their order come to the same; the limit does not count.

## Main definitions

* `Join.sameNode`: two joins agree but for their selections and children.
* `Join.equivalent`, `Query.equivalent`.
-/

namespace JoinPlan

/-- Two joins agree in everything but their selections and children, and have equally many of
these. -/
def Join.sameNode (a b : Join) : Bool :=
  a.table = b.table && a.via = b.via && a.condition = b.condition && a.orderBy = b.orderBy &&
    a.joins.length = b.joins.length

mutual

/-- Two joins are equivalent. The first difference on the way down decides; a selection that
cannot be expanded is an error if nothing above it differs. -/
def Join.equivalent (catalog : Catalog) : Join → Join → Except QueryError Bool
  | a@⟨_, _, _, _, _, as⟩, b@⟨_, _, _, _, _, bs⟩ => do
    if a.sameNode b then
      let selectA ← a.expandedSelect catalog
      let selectB ← b.expandedSelect catalog
      if selectA = selectB then Join.allEquivalent catalog as bs else return false
    else return false

/-- The joins of two lists are equivalent one by one. -/
def Join.allEquivalent (catalog : Catalog) : List Join → List Join → Except QueryError Bool
  | a :: as, b :: bs => do
    if ← Join.equivalent catalog a b then Join.allEquivalent catalog as bs else return false
  | _, _ => return true

end

/-- Two queries describe the same tree of joins. -/
def Query.equivalent (catalog : Catalog) (a b : Query) : Except QueryError Bool :=
  Join.equivalent catalog a.base b.base

end JoinPlan
