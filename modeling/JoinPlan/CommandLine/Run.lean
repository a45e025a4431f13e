import JoinPlan.CommandLine.Arguments
import JoinPlan.Execution.Run
import JoinPlan.Json.Printer
import JoinPlan.Sqlite.Row
import JoinPlan.Sqlite.Schema
import JoinPlan.Survey.Written
import JoinPlan.Catalog.Restriction

/-!
# Carrying out a command

A command reads a database, and some read a query, from a file or from standard input. What it
prints is JSON. The outcome is a function of the files that are there, so it can be told without
touching any. A database is described by its tables, which hold no rows.

## Main definitions

* `Surroundings`: the files and the input that a command finds.
* `Command.queryPath?`: where a command reads its query from.
* `Outcome`: what it prints, and its exit code.
* `Invocation.outcome`: the outcome of a command.
* `commandLineOutcome`: the outcome of a command line.
-/

namespace JoinPlan

/-- What a command finds around it. -/
structure Surroundings where
  /-- The database that a path leads to. -/
  database? : String → Option (List Sqlite.SchemaDef)
  /-- The text of a file. -/
  file? : String → Option String
  /-- The text of standard input. -/
  input : String
  /-- The database to open where the command line names none. -/
  presetDatabase : Option String

/-- What comes of a command line. -/
structure Outcome where
  exitCode : Nat
  output : String
  /-- The message of a failure. -/
  error : Option String
  deriving DecidableEq, Repr

namespace Outcome

/-- A command that did what it should. -/
def success (output : String) : Outcome := ⟨0, output, none⟩

/-- A command that failed. -/
def failure (message : String) : Outcome := ⟨1, "", some message⟩

end Outcome

/-- The steps of a path from slash to slash. An empty step, or a dot after the first step, leads
nowhere and is left out. A path from the root begins with an empty step. -/
def pathSteps (path : String) : List String :=
  match path.splitOn "/" with
  | [] => []
  | first :: rest => first :: rest.filter fun step => step ≠ "" && step ≠ "."

/-- The path stands for standard input: its only step is a hyphen. -/
def isInputPath (path : String) : Bool :=
  pathSteps path = ["-"]

/-- The path that a command reads its query from. -/
def Command.queryPath? : Command → Option String
  | prepare file | run file _ | count file => some file
  | schema | relations _ _ | entities | related _ _ _ | testConnection => none

/-- Reads the query at a path. -/
def Surroundings.query (around : Surroundings) (path : String) : Except String Query :=
  let text? := if isInputPath path then some around.input else around.file? path
  match text? with
  | none => .error ("Failed to read query file " ++ Text.shown path)
  | some text =>
    match Query.parse? text with
    | some query => .ok query
    | none => .error ("Invalid query in " ++ Text.shown path)

/-- A result as text, or the message of the error in its place. -/
def printResult {α : Type} (toJson : α → Json) (result : Except QueryError α) :
    Except String String :=
  match result with
  | .ok value => .ok ((toJson value).pretty ++ "\n")
  | .error e => .error e.message

/-- What a command prints about an open database. -/
def Command.print (command : Command) (around : Surroundings) (path : String)
    (catalog : Catalog) : Except String String :=
  match command with
  | .testConnection => .ok ("Connected to " ++ Text.shown path ++ "\n")
  | .schema => printResult Catalog.toJson (.ok catalog)
  | .relations table maxJoins =>
    printResult (fun related => .arr (related.map RelatedTable.toJson))
      (catalog.relatedTables table maxJoins)
  | .entities => printResult EntitySplit.toJson (.ok catalog.entitySplit)
  | .prepare file => do
    let query ← around.query file
    printResult Prepared.toJson (query.prepare catalog)
  | .run file limit => do
    let query ← around.query file
    let query := { query with limit := limit <|> query.limit }
    printResult QueryResult.toJson (query.run catalog Sqlite.EmptyDatabase.empty).1
  | .count file => do
    let query ← around.query file
    printResult CountResult.toJson (query.count catalog Sqlite.EmptyDatabase.empty).1
  | .related source target matching =>
    let row := Json.Members.ofPairs (matching.map fun (name, value) => (name, .str value))
    printResult RelatedRows.toJson
      (catalog.fetchRelated source row target Sqlite.EmptyDatabase.empty).1

/-- The database of an invocation, given the one to open where it names none. -/
def Invocation.databasePath? (invocation : Invocation) (preset : Option String) : Option String :=
  invocation.database <|> preset

/-- What comes of a command. -/
def Invocation.outcome (invocation : Invocation) (around : Surroundings) : Outcome :=
  match invocation.databasePath? around.presetDatabase with
  | none => .failure "No database given; pass --database or set RELQUERY_DATABASE"
  | some path =>
    match around.database? path with
    | none => .failure ("Failed to open database " ++ Text.shown path)
    | some schemas =>
      let catalog := (Sqlite.catalog schemas).without invocation.ignore
      match invocation.command.print around path catalog with
      | .ok output => .success output
      | .error message => .failure message

/-- The name and version of the program. -/
def versionText : String := "relquery 0.1.0\n"

/-- A command line that asks for nothing. -/
def Outcome.misuse : Outcome := ⟨2, "", none⟩

/-- What comes of a command line. Asking for help or for the version is no mistake. -/
def commandLineOutcome (words : List String) (around : Surroundings) : Outcome :=
  match Arguments.parse words with
  | .ok invocation =>
    if invocation.databasePath? around.presetDatabase = some "" then .misuse
    else invocation.outcome around
  | .error .versionRequested => .success versionText
  | .error .helpRequested => .success ""
  | .error _ => .misuse

end JoinPlan
