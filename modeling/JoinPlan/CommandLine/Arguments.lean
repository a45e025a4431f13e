import JoinPlan.Catalog.TableRef

/-!
# Reading command lines

A command line consists of options, a command, and the arguments of the command. Some options may
stand before the command as well as after it. An option that takes a value takes it from the same
word (`-m3`, `--max-joins=3`) or is the next word; flags of one letter may share a word. Two
hyphens end the options.

## Main definitions

* `Invocation`, `Command`: what a command line asks for.
* `UsageError`: why a command line asks for nothing.
* `Arguments.parse`: reads a command line.

## Implementation notes

Words are read one by one at one of two levels, before the command and after it. A value is only
looked at when the next option or argument begins, or the level ends: until then it is pending.
This decides which of two mistakes is reported.
-/

namespace JoinPlan

/-- What to do. -/
inductive Command where
  | schema
  | relations (table : TableRef) (maxJoins : Option Nat)
  | entities
  | prepare (file : String)
  | run (file : String) (limit : Option Nat)
  | count (file : String)
  | related (localTable foreignTable : TableRef) (matching : List (String × String))
  | testConnection
  deriving DecidableEq, Repr

/-- A command with the settings that apply to all commands. -/
structure Invocation where
  database : Option String
  ignore : List TableRef
  verbose : Bool
  command : Command
  deriving DecidableEq, Repr

/-- Why a command line asks for nothing. -/
inductive UsageError where
  | unknownCommand
  | missingCommand
  /-- There are no arguments at all. -/
  | nothingGiven
  | missingArgument
  | unknownArgument
  /-- A value does not have the form it must have. -/
  | rejectedValue
  /-- An option stands without its value, or a path is empty. -/
  | missingValue
  /-- A flag is given a value. -/
  | surplusValue
  /-- An option that may be given once is given again. -/
  | repeated
  | helpRequested
  | versionRequested
  deriving DecidableEq, Repr

namespace Arguments

/-! ### What may be given -/

/-- The options. -/
inductive Opt where
  | database
  | ignore
  | verbose
  | help
  | version
  | maxJoins
  | limit
  | matching
  deriving DecidableEq, Repr

/-- The long name of an option. -/
def Opt.long : Opt → String
  | database => "database"
  | ignore => "ignore"
  | verbose => "verbose"
  | help => "help"
  | version => "version"
  | maxJoins => "max-joins"
  | limit => "limit"
  | matching => "match"

/-- The letter of an option, if it has one. -/
def Opt.letter? : Opt → Option Char
  | database => some 'd'
  | ignore => none
  | verbose => some 'v'
  | help => some 'h'
  | version => some 'V'
  | maxJoins => some 'm'
  | limit => some 'l'
  | matching => some 'm'

/-- The option takes a value. -/
def Opt.takesValue : Opt → Bool
  | verbose | help | version => false
  | _ => true

/-- The option may be given more than once. -/
def Opt.repeats : Opt → Bool
  | ignore | matching => true
  | _ => false

/-- What an argument of a command is. -/
inductive Positional where
  | table
  | path
  deriving DecidableEq, Repr

/-- The names of the commands. -/
inductive CommandName where
  | schema
  | relations
  | entities
  | prepare
  | run
  | count
  | related
  | testConnection
  deriving DecidableEq, Repr

/-- The command of a word. -/
def CommandName.ofWord? (word : String) : Option CommandName :=
  [("schema", schema), ("relations", relations), ("entities", entities), ("prepare", prepare),
    ("run", run), ("count", count), ("related", related),
    ("test-connection", testConnection)].lookup word

/-- The word that asks for help on a command. -/
def helpWord : String := "help"

/-- What may be given at a level. -/
structure Grammar where
  options : List Opt
  positionals : List Positional
  takesCommand : Bool
  deriving DecidableEq, Repr

/-- The options that may stand at either level. -/
def sharedOptions : List Opt := [.database, .ignore, .verbose, .help]

/-- What may be given before the command. -/
def outerGrammar : Grammar :=
  ⟨.version :: sharedOptions, [], true⟩

/-- What may be given after a command. -/
def CommandName.grammar : CommandName → Grammar
  | schema | entities | testConnection => ⟨sharedOptions, [], false⟩
  | relations => ⟨.maxJoins :: sharedOptions, [.table], false⟩
  | prepare | count => ⟨sharedOptions, [.path], false⟩
  | run => ⟨.limit :: sharedOptions, [.path], false⟩
  | related => ⟨.matching :: sharedOptions, [.table, .table], false⟩

/-! ### Values -/

/-- A value of an option or argument. -/
inductive Value where
  | path (text : String)
  | table (ref : TableRef)
  | number (n : Nat)
  | pair (name value : String)
  deriving DecidableEq, Repr

/-- A path, which must not be empty. -/
def pathValue (text : String) : Except UsageError Value :=
  if text.isEmpty then .error .missingValue else .ok (.path text)

/-- A reference to a table. -/
def tableValue (text : String) : Except UsageError Value :=
  match TableRef.parse? text with
  | some ref => .ok (.table ref)
  | none => .error .rejectedValue

/-- A whole number of 64 bits, in digits, after a plus if there is one. -/
def numberValue (text : String) : Except UsageError Value :=
  let digits := match text.toList with
    | '+' :: rest => rest
    | all => all
  let n := digits.foldl (fun n c => 10 * n + (c.toNat - '0'.toNat)) 0
  if digits.isEmpty || !digits.all Char.isDigit || Nat.pow 2 64 ≤ n then .error .rejectedValue
  else .ok (.number n)

/-- A name and a value, parted by the first equals sign. The name must not be empty. -/
def pairValue (text : String) : Except UsageError Value :=
  let name := text.toList.takeWhile (· ≠ '=')
  match text.toList.dropWhile (· ≠ '=') with
  | _ :: value =>
    if name.isEmpty then .error .rejectedValue
    else .ok (.pair (String.ofList name) (String.ofList value))
  | [] => .error .rejectedValue

/-- The parts of a text between commas. -/
def commaParts (text : String) : List String :=
  text.splitOn ","

/-- The values of an option from the text given for it. -/
def Opt.values (option : Opt) (text : String) : Except UsageError (List Value) :=
  match option with
  | database => (pathValue text).map ([·])
  | ignore => (commaParts text).mapM tableValue
  | maxJoins | limit => (numberValue text).map ([·])
  | matching => (pairValue text).map ([·])
  | verbose | help | version => .ok []

/-- The value of an argument. -/
def Positional.value : Positional → String → Except UsageError Value
  | table, text => tableValue text
  | path, text => pathValue text

/-! ### Reading one level -/

/-- What has been given but not yet looked at. -/
inductive Pending where
  | nothing
  /-- An option that waits for its value. -/
  | awaiting (option : Opt)
  | option (option : Opt) (text : String)
  | positional (kind : Positional) (text : String)
  deriving DecidableEq, Repr

/-- What has been read at a level. -/
structure Level where
  /-- The options, in order, with their values. -/
  options : List (Opt × List Value)
  /-- The arguments, in order. -/
  arguments : List Value
  pending : Pending
  /-- How many arguments have begun. -/
  begun : Nat
  /-- Options have ended. -/
  ended : Bool
  deriving DecidableEq, Repr

namespace Level

/-- The level at which nothing has been read. -/
def fresh : Level := ⟨[], [], .nothing, 0, false⟩

/-- The option has been given. -/
def given (level : Level) (option : Opt) : Bool :=
  level.options.any (·.1 = option)

/-- The values of all occurrences of an option. -/
def valuesOf (level : Level) (option : Opt) : List Value :=
  (level.options.filter (·.1 = option)).flatMap (·.2)

/-- Records an option with the text given for it. -/
def record (level : Level) (option : Opt) (text : String) : Except UsageError Level :=
  if level.given option && !option.repeats then .error .repeated
  else do
    let values ← option.values text
    return { level with options := level.options ++ [(option, values)] }

/-- Looks at what is pending. -/
def settle (level : Level) : Except UsageError Level :=
  let settled := { level with pending := .nothing }
  match level.pending with
  | .nothing => .ok level
  | .awaiting _ => .error .missingValue
  | .option option text => settled.record option text
  | .positional kind text => do
    let value ← kind.value text
    return { settled with arguments := settled.arguments ++ [value] }

/-- Takes a flag. -/
def takeFlag (level : Level) (option : Opt) : Except UsageError Level := do
  let level ← level.settle
  match option with
  | .help => throw .helpRequested
  | .version => throw .versionRequested
  | option => level.record option ""

/-- Takes an option whose value is in the same word. -/
def takeAttached (level : Level) (option : Opt) (text : String) : Except UsageError Level := do
  let level ← level.settle
  level.record option text

/-- Takes an option whose value is to be the next word. -/
def takeAwaiting (level : Level) (option : Opt) : Except UsageError Level := do
  let level ← level.settle
  return { level with pending := .awaiting option }

end Level

/-- Takes a word of two hyphens and an option's long name. -/
def takeLong (grammar : Grammar) (level : Level) (word : List Char) : Except UsageError Level :=
  let name := String.ofList (word.takeWhile (· ≠ '='))
  let attached := match word.dropWhile (· ≠ '=') with
    | _ :: value => some (String.ofList value)
    | [] => none
  match grammar.options.find? (·.long = name) with
  | none => .error .unknownArgument
  | some option =>
    match option.takesValue, attached with
    | true, some text => level.takeAttached option text
    | true, none => level.takeAwaiting option
    | false, some _ => .error .surplusValue
    | false, none => level.takeFlag option

/-- Takes the letters of a word after one hyphen. What follows the letter of an option that takes
a value is that value, an equals sign before it aside. -/
def takeLetters (grammar : Grammar) (level : Level) : List Char → Except UsageError Level
  | [] => .ok level
  | letter :: rest =>
    match grammar.options.find? (·.letter? = some letter) with
    | none => .error .unknownArgument
    | some option =>
      if option.takesValue then
        match rest with
        | [] => level.takeAwaiting option
        | '=' :: text => level.takeAttached option (String.ofList text)
        | text => level.takeAttached option (String.ofList text)
      else do
        let level ← level.takeFlag option
        takeLetters grammar level rest

/-- Takes a word as an argument. -/
def takeArgument (grammar : Grammar) (level : Level) (word : String) : Except UsageError Level :=
  match grammar.positionals[level.begun]? with
  | some kind => do
    let level ← level.settle
    return { level with pending := .positional kind word, begun := level.begun + 1 }
  | none =>
    if !grammar.takesCommand then .error .unknownArgument
    else if level.ended && (word = helpWord || (CommandName.ofWord? word).isSome) then
      .error .unknownArgument
    else .error .unknownCommand

/-- Takes a word that is no command. -/
def takeWord (grammar : Grammar) (level : Level) (word : String) : Except UsageError Level :=
  if level.ended then takeArgument grammar level word
  else
    match word.toList with
    | ['-', '-'] => .ok { level with ended := true }
    | '-' :: '-' :: name => takeLong grammar level name
    | '-' :: letter :: rest => takeLetters grammar level (letter :: rest)
    | _ =>
      match level.pending with
      | .awaiting option => .ok { level with pending := .option option word }
      | _ => takeArgument grammar level word

/-- The words after the word for help must lead to a command. -/
def helpOn : List String → UsageError
  | [] => .helpRequested
  | [word] =>
    if word = helpWord || (CommandName.ofWord? word).isSome then .helpRequested
    else .unknownCommand
  | _ => .unknownCommand

/-- The level expects the value of an option. -/
def Level.awaits (level : Level) : Bool :=
  match level.pending with
  | .awaiting _ => true
  | _ => false

/-- Reads the words after the command. -/
def readInner (grammar : Grammar) (level : Level) : List String → Except UsageError Level
  | [] => level.settle
  | word :: rest => do
    let level ← takeWord grammar level word
    readInner grammar level rest

/-- Reads the words up to the command; gives the words after it, too. -/
def readOuter (level : Level) :
    List String → Except UsageError (Level × Option (CommandName × List String))
  | [] => .ok (level, none)
  | word :: rest =>
    if level.ended || level.awaits then do
      let level ← takeWord outerGrammar level word
      readOuter level rest
    else if word = helpWord then .error (helpOn rest)
    else
      match CommandName.ofWord? word with
      | some name => .ok (level, some (name, rest))
      | none => do
        let level ← takeWord outerGrammar level word
        readOuter level rest

/-! ### The whole command line -/

/-- The number that an option is given. -/
def Level.number? (level : Level) (option : Opt) : Option Nat :=
  match level.valuesOf option with
  | .number n :: _ => some n
  | _ => none

/-- The names and values that rows must match. -/
def Level.pairs (level : Level) : List (String × String) :=
  (level.valuesOf .matching).filterMap fun
    | .pair name value => some (name, value)
    | _ => none

/-- The command with its arguments, all of which must be there. -/
def Level.command (level : Level) (name : CommandName) : Except UsageError Command :=
  match name, level.arguments with
  | .schema, _ => .ok .schema
  | .entities, _ => .ok .entities
  | .testConnection, _ => .ok .testConnection
  | .relations, [.table ref] => .ok (.relations ref (level.number? .maxJoins))
  | .prepare, [.path file] => .ok (.prepare file)
  | .run, [.path file] => .ok (.run file (level.number? .limit))
  | .count, [.path file] => .ok (.count file)
  | .related, [.table source, .table target] => .ok (.related source target level.pairs)
  | _, _ => .error .missingArgument

/-- The values of an option that may stand at either level: those after the command, if it is
given there. -/
def sharedValues (outer inner : Level) (option : Opt) : List Value :=
  if inner.given option then inner.valuesOf option else outer.valuesOf option

/-- Reads a command line. -/
def parse (words : List String) : Except UsageError Invocation := do
  match ← readOuter .fresh words with
  | (outer, none) =>
    let outer ← outer.settle
    throw (if outer.options.isEmpty then .nothingGiven else .missingCommand)
  | (outer, some (name, rest)) =>
    let inner ← readInner name.grammar .fresh rest
    let command ← inner.command name
    let outer ← outer.settle
    return {
      database := (sharedValues outer inner .database).findSome? fun
        | .path text => some text
        | _ => none
      ignore := (sharedValues outer inner .ignore).filterMap fun
        | .table ref => some ref
        | _ => none
      verbose := outer.given .verbose || inner.given .verbose
      command }

end Arguments

end JoinPlan
