import JoinPlan.Catalog.Written
import JoinPlan.Json.Document
import JoinPlan.Query.Basic

/-!
# Queries as JSON

How queries are written and read. What is empty or absent is left out of the written form. A
condition is told by its fields: a group, a membership test and a comparison each have all of
theirs, and ignore any others.

## Main definitions

* `Condition.toJson`, `Condition.ofJson`; `Join.toJson`, `Join.ofJson`; `Query.toJson`,
  `Query.ofJson`.
* `Query.parse?`: the query of a JSON text, in which only what the query consists of need have a
  value.
-/

namespace JoinPlan

/-- Whole numbers of 64 bits end here. -/
def maxLimit : Nat := Nat.pow 2 64 - 1

/-- Whole numbers of 32 bits end here. -/
def maxPriority : Nat := Nat.pow 2 32 - 1

/-! ### Selections and sorting -/

namespace Selection

/-- All columns are written as a star. -/
def toJson : Selection → Json
  | all => .str "*"
  | columns names => .ofStrings names

/-- Reads a star or a list of columns. -/
def ofJson : Json → Except ReadError Selection
  | .str text => if text = "*" then .ok all else .error (.invalidSelect text)
  | .arr items => (items.mapM Json.readString).map columns
  | _ => .error .malformed

end Selection

namespace SortTerm

/-- The fields of a sort term, in their declared order. -/
def fieldNames : List String := ["column", "direction", "priority"]

/-- A sort term as an object. -/
def toJson (term : SortTerm) : Json :=
  .obj ([("column", .str term.column), ("direction", .str term.direction.word)] ++
    term.priority.toList.map fun priority => ("priority", .ofNat priority))

/-- Reads a sort term. -/
def ofJson (value : Json) : Except ReadError SortTerm :=
  Record.read fieldNames value fun r =>
    SortTerm.mk
      <$> r.required "column" Json.readString
      <*> r.required "direction" (Json.readWord SortDirection.ofWord?)
      <*> r.withDefault "priority" none (Json.readOption (Json.readNat maxPriority))

end SortTerm

/-! ### Conditions -/

namespace Condition

mutual

/-- A condition as an object. -/
def toJson : Condition → Json
  | group connective parts =>
    .obj [("operator", .str connective.word), ("conditions", .arr (toJsonAll parts))]
  | membership column operator values =>
    .obj [("column", .str column), ("operator", .str operator.word),
      ("values", .ofStrings values)]
  | comparison column operator value =>
    .obj [("column", .str column), ("operator", .str operator.word), ("value", .str value)]

/-- The objects of all conditions of a list. -/
def toJsonAll : List Condition → List Json
  | [] => []
  | part :: rest => part.toJson :: toJsonAll rest

end

/-- The value of a member that occurs exactly once. -/
def onlyMember? (name : String) (members : Json.Members) : Option Json :=
  match members.filter (·.1 = name) with
  | [(_, value)] => some value
  | _ => none

/-- The condition that members describe, given the conditions that the member for the parts of a
group describes. -/
def ofMembers? (members : Json.Members) (parts : Option (List Condition)) : Option Condition :=
  let group? : Option Condition := do
    let operator ← (← onlyMember? "operator" members).word? Connective.ofWord?
    let _ ← onlyMember? "conditions" members
    return group operator (← parts)
  let membership? : Option Condition := do
    let column ← (← onlyMember? "column" members).str?
    let operator ← (← onlyMember? "operator" members).word? Membership.ofWord?
    let items ← (← onlyMember? "values" members).arr?
    return membership column operator (← items.mapM Json.str?)
  let comparison? : Option Condition := do
    let column ← (← onlyMember? "column" members).str?
    let operator ← (← onlyMember? "operator" members).word? Comparison.ofWord?
    let value ← (← onlyMember? "value" members).str?
    return comparison column operator value
  group? <|> membership? <|> comparison?

mutual

/-- Reads a condition: as a group, else as a membership test, else as a comparison. -/
def ofJson? : Json → Option Condition
  | .obj members => ofMembers? members (partsOf? members)
  | _ => none

/-- The conditions under the first member for the parts of a group. -/
def partsOf? : List (String × Json) → Option (List Condition)
  | [] => none
  | (name, value) :: rest => if name = "conditions" then partsOfValue? value else partsOf? rest

/-- The conditions of an array. -/
def partsOfValue? : Json → Option (List Condition)
  | .arr items => ofItems? items
  | _ => none

/-- The conditions of all items. -/
def ofItems? : List Json → Option (List Condition)
  | [] => some []
  | item :: rest => do
    let part ← ofJson? item
    let parts ← ofItems? rest
    return part :: parts

end

/-- Reads a condition. -/
def ofJson : Json → Except ReadError Condition :=
  Json.expect ofJson?

end Condition

/-! ### Joins -/

namespace Join

/-- The fields of a join, in their declared order. -/
def fieldNames : List String :=
  ["tableRef", "via", "select", "where", "orderBy", "joins"]

/-- A member that is left out where it would be an empty array. -/
def listMember (name : String) (items : List Json) : Json.Members :=
  if items.isEmpty then [] else [(name, .arr items)]

mutual

/-- A join as an object. -/
def toJson : Join → Json
  | ⟨table, via, select, condition, orderBy, joins⟩ =>
    .obj ([("tableRef", table.toJson)] ++ listMember "via" (via.map TableRef.toJson) ++
      [("select", select.toJson)] ++
      condition.toList.map (fun condition => ("where", condition.toJson)) ++
      listMember "orderBy" (orderBy.map SortTerm.toJson) ++
      listMember "joins" (toJsonAll joins))

/-- The objects of all joins of a list. -/
def toJsonAll : List Join → List Json
  | [] => []
  | join :: rest => join.toJson :: toJsonAll rest

end

/-- Reads the fields of a join, given what its children are read as. -/
def ofRecord (children : Except ReadError (List Join)) (r : Record) : Reading Join :=
  Join.mk
    <$> r.required "tableRef" Json.readTableRef
    <*> r.withDefault "via" [] (Json.readList Json.readTableRef)
    <*> r.required "select" Selection.ofJson
    <*> r.withDefault "where" none (Json.readOption Condition.ofJson)
    <*> r.withDefault "orderBy" [] (Json.readList SortTerm.ofJson)
    <*> r.withDefault "joins" [] fun _ => children

mutual

/-- Reads a join. -/
def ofJson : Json → Except ReadError Join
  | .obj members => Record.read fieldNames (.obj members) (ofRecord (childrenOf members))
  | .arr items => Record.read fieldNames (.arr items) (ofRecord (childrenAt 5 items))
  | _ => .error .malformed

/-- Reads the children under the first member for them. -/
def childrenOf : List (String × Json) → Except ReadError (List Join)
  | [] => .ok []
  | (name, value) :: rest => if name = "joins" then childrenOfValue value else childrenOf rest

/-- Reads the children in the item at a position. -/
def childrenAt : Nat → List Json → Except ReadError (List Join)
  | _, [] => .ok []
  | 0, item :: _ => childrenOfValue item
  | position + 1, _ :: rest => childrenAt position rest

/-- Reads the children of an array. -/
def childrenOfValue : Json → Except ReadError (List Join)
  | .arr items => ofItems items
  | _ => .error .malformed

/-- Reads all items as joins; the first that fails is reported. -/
def ofItems : List Json → Except ReadError (List Join)
  | [] => .ok []
  | item :: rest => do
    let join ← ofJson item
    let joins ← ofItems rest
    return join :: joins

end

end Join

/-! ### Queries -/

namespace Query

/-- The fields of a query, in their declared order. -/
def fieldNames : List String := ["base", "limit"]

/-- A query as an object. -/
def toJson (query : Query) : Json :=
  .obj ([("base", query.base.toJson)] ++
    query.limit.toList.map fun limit => ("limit", .ofNat limit))

/-- Reads a query. -/
def ofJson (value : Json) : Except ReadError Query :=
  Record.read fieldNames value fun r =>
    Query.mk
      <$> r.required "base" Join.ofJson
      <*> r.withDefault "limit" none (Json.readOption (Json.readNat maxLimit))

/-- The parts of a query's text. -/
inductive Part where
  | query
  | join
  | joins
  | sortTerms
  | sortTerm
  /-- A part that is looked at in full. -/
  | whole
  deriving DecidableEq, Repr

/-- The part at a position of the fields of a part, or under one of their names. -/
def Part.field? (part : Part) (name : String) : Option Part :=
  match part with
  | query => [("base", join), ("limit", whole)].lookup name
  | join =>
    [("tableRef", whole), ("via", whole), ("select", whole), ("where", whole),
      ("orderBy", sortTerms), ("joins", joins)].lookup name
  | sortTerm => (SortTerm.fieldNames.map fun field => (field, whole)).lookup name
  | _ => some whole

/-- The fields of a part, where it is a record. -/
def Part.fieldNames? : Part → Option (List String)
  | query => some Query.fieldNames
  | join => some Join.fieldNames
  | sortTerm => some SortTerm.fieldNames
  | _ => none

/-- The part in an item of an array. -/
def Part.item? (part : Part) (index : Nat) : Option Part :=
  match part with
  | joins => some join
  | sortTerms => some sortTerm
  | part =>
    match part.fieldNames? with
    | some names => names[index]?.bind part.field?
    | none => some whole

/-- A reader of queries passes over the members that are no part of a query. -/
def view : Json.View Part :=
  ⟨Part.field?, Part.item?⟩

/-- The query of a JSON text, if the text has one. -/
def parse? (text : String) : Option Query := do
  let document ← Json.Document.parse? text
  let value ← document.read? view Json.maxDepth .query
  (ofJson value).toOption

end Query

end JoinPlan
