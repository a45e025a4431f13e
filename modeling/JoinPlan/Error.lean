import JoinPlan.Catalog.TableRef

/-!
# What can go wrong

Every way in which a look-up, a compilation or an execution can fail is one constructor, which
carries what a reader needs to find the fault. The wording is in `QueryError.message` alone.
-/

namespace JoinPlan

/-- What is wrong with the tables that a join is to pass through. -/
inductive WaypointFault where
  | repeated
  | passesSource
  | endsAtTarget
  deriving DecidableEq, Repr

/-- Why a query has no answer. -/
inductive QueryError where
  | invalidTableRef (text : String)
  | unknownSchema (schema : String)
  | unknownTable (table : TableRef)
  | noRelationships (table : TableRef)
  | noPath (source target : TableRef)
  | invalidWaypoint (source target : TableRef) (via : List TableRef) (fault : WaypointFault)
  | duplicateTable (table : TableRef) (path : List TableRef)
  | unknownColumn (table : TableRef) (column : String)
  | missingPriority (joinAlias column : String)
  | duplicatePriority (priority : Nat)
  | noDirectForeignKey (source target : TableRef)
  | emptySelect
  | invalidCount
  | connectionFailed (detail : String)
  | noScriptedRows
  deriving DecidableEq, Repr

/-- The wording of a waypoint fault. -/
def WaypointFault.message : WaypointFault → String
  | .repeated => "via path contains duplicate table refs"
  | .passesSource => "via path includes the source table"
  | .endsAtTarget => "via path ends with the target table"

/-- The wording of an error. -/
def QueryError.message : QueryError → String
  | .invalidTableRef text => "Invalid table ref `" ++ text ++ "`, expected `schema.table`"
  | .unknownSchema schema => "Could not find schema " ++ schema
  | .unknownTable table => "Could not find table " ++ table.text
  | .noRelationships table => "No relationships found for table " ++ table.text
  | .noPath source target =>
    "Couldn't find a path from " ++ source.text ++ " to " ++ target.text
  | .invalidWaypoint source target via fault =>
    "Invalid via path (" ++ TableRef.joinTexts ", " via ++ ") from " ++ source.text ++ " to " ++
      target.text ++ ": " ++ fault.message
  | .duplicateTable table path =>
    "Duplicate table ref " ++ table.text ++ ". Path: " ++ TableRef.joinTexts " > " path
  | .unknownColumn table column => "Column " ++ table.text ++ "." ++ column ++ " does not exist"
  | .missingPriority joinAlias column =>
    "Missing 'priority' for orderBy on " ++ joinAlias ++ "." ++ column ++
      "; 'priority' must be set when multiple orderBy entries exist in the query"
  | .duplicatePriority priority => "Duplicate 'priority' for orderBy: " ++ toString priority
  | .noDirectForeignKey source target =>
    "Could not find a foreign key between " ++ source.text ++ " and " ++ target.text ++
      "; the schema graph and catalog disagree"
  | .emptySelect => "Query selects no columns"
  | .invalidCount => "Count query returned no usable `count` column"
  | .connectionFailed detail => "Database connection failed: " ++ detail
  | .noScriptedRows => "Call mock_exec_response() before calling exec() on FakeDriver"

end JoinPlan
