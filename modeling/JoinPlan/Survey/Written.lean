import JoinPlan.Catalog.Written
import JoinPlan.Survey.Distance
import JoinPlan.Survey.Junction

/-!
# Surveys as JSON
-/

namespace JoinPlan

/-- A related table as an object. -/
def RelatedTable.toJson (related : RelatedTable) : Json :=
  .obj [("schemaName", .str related.table.schema), ("tableName", .str related.table.table),
    ("shortestJoinPath", .ofNat related.joins)]

/-- Both lists of tables as an object. -/
def EntitySplit.toJson (split : EntitySplit) : Json :=
  .obj [("entities", .ofTableRefs split.entities), ("junctions", .ofTableRefs split.junctions)]

end JoinPlan
