import JoinPlan.CommandLine.Run

/-!
# The command line

Reads the files that a command line names, and prints what comes of it. A database is a file that
lists the tables of a database as JSON; an empty file is a database without tables.
-/

namespace JoinPlan

/-- The variable that names the database where the command line does not. -/
def databaseVariable : String := "RELQUERY_DATABASE"

/-- The database that a text describes. -/
def databaseOfText? (text : String) : Option (List Sqlite.SchemaDef) :=
  if text.isEmpty then some [⟨"main", []⟩]
  else do
    let value ← Json.parse? text
    let tables ← (Json.readList Sqlite.TableDef.ofJson value.collapse).toOption
    return [⟨"main", tables⟩]

/-- The text of a file, if it can be read. -/
def readText? (path : String) : IO (Option String) := do
  try
    return some (← IO.FS.readFile path)
  catch _ =>
    return none

/-- The texts of the files among some paths. -/
def readTexts (paths : List String) : IO (List (String × String)) := do
  let texts ← paths.mapM fun path => do
    return (← readText? path).map fun text => (path, text)
  return texts.filterMap id

/-- What the command of an invocation finds around it. -/
def surroundingsFor (invocation : Invocation) (presetDatabase : Option String) :
    IO Surroundings := do
  let query := invocation.command.queryPath?.toList
  let texts ← readTexts ((invocation.databasePath? presetDatabase).toList ++ query)
  let input ← if query.any isInputPath then (← IO.getStdin).readToEnd else pure ""
  let file? := fun path => texts.lookup path
  let database? := fun path => (file? path).bind databaseOfText?
  return { database?, file?, input, presetDatabase }

/-- Prints an outcome and gives its exit code. -/
def Outcome.report (outcome : Outcome) : IO UInt32 := do
  IO.print outcome.output
  match outcome.error with
  | some message => IO.eprintln ("Error: " ++ message)
  | none => pure ()
  return outcome.exitCode.toUInt32

end JoinPlan

/-- Carries out a command line. -/
def main (words : List String) : IO UInt32 := do
  let preset ← IO.getEnv JoinPlan.databaseVariable
  let nothing : JoinPlan.Surroundings := ⟨fun _ => none, fun _ => none, "", preset⟩
  let around ← match JoinPlan.Arguments.parse words with
    | .ok invocation => JoinPlan.surroundingsFor invocation preset
    | .error _ => pure nothing
  (JoinPlan.commandLineOutcome words around).report
