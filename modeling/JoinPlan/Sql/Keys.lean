import JoinPlan.Sql.Statement

/-!
# Joining two tables over a foreign key

Two tables that are joined directly must agree on a foreign key between them. The parent's own
keys come first, then the child's; of several keys the first counts.

## Main definitions

* `Catalog.equate`: the columns of parent and child that must agree.
-/

namespace JoinPlan

/-- The equation that joins a child to its parent, each with the name that qualifies its columns.
The child's column stands on the left. -/
def Catalog.equate (catalog : Catalog) (parent : TableRef) (parentName : String)
    (child : TableRef) (childName : String) : Except QueryError Equation := do
  let parentTable ← catalog.findTable parent
  match parentTable.keyTo? child with
  | some (column, key) => return ⟨⟨childName, key.foreignColumn⟩, ⟨parentName, column.name⟩⟩
  | none =>
    let childTable ← catalog.findTable child
    match childTable.keyTo? parent with
    | some (column, key) => return ⟨⟨childName, column.name⟩, ⟨parentName, key.foreignColumn⟩⟩
    | none => throw (.noDirectForeignKey parent child)

end JoinPlan
