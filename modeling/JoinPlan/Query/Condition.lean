import JoinPlan.Catalog.Basic

/-!
# Conditions

A condition compares a column with a value, tests whether it is among some values, or connects
other conditions. Conditions are built up piece by piece, so half-filled ones are to be expected;
they can be pruned before a query is compiled.

## Main definitions

* `Condition`, `Connective`, `Comparison`, `Membership`.
* `Condition.isComplete`, `Condition.complete?`: telling and pruning half-filled conditions.
* `Condition.leaves`, `Condition.columns`, `Condition.values`: what a condition consists of, from
  left to right.
* `Condition.check`: the columns exist on a table.
* `Condition.render`: the text of a condition, its columns qualified by a name.
* `quoteLiteral`: a text as a literal.
-/

namespace JoinPlan

/-- How conditions are connected. -/
inductive Connective where
  | conjunction
  | disjunction
  deriving DecidableEq, Repr

/-- How a column is compared with a value. -/
inductive Comparison where
  | equal
  | less
  | greater
  | atMost
  | atLeast
  | unequal
  | like
  | unlike
  deriving DecidableEq, Repr

/-- Whether a column is to be among some values. -/
inductive Membership where
  | among
  | notAmong
  deriving DecidableEq, Repr

/-- A condition on the columns of one table. -/
inductive Condition where
  | group (connective : Connective) (parts : List Condition)
  | membership (column : String) (operator : Membership) (values : List String)
  | comparison (column : String) (operator : Comparison) (value : String)
  deriving Repr

/-! ### Operators -/

namespace Connective

/-- The word of a connective in a query. -/
def word : Connective → String
  | conjunction => "and"
  | disjunction => "or"

/-- The connective of a word. -/
def ofWord? (word : String) : Option Connective :=
  [("and", conjunction), ("or", disjunction)].lookup word

/-- The connective in a statement. -/
def sql : Connective → String
  | conjunction => "AND"
  | disjunction => "OR"

/-- The condition that connects nothing: true for a conjunction, false for a disjunction. -/
def neutral : Connective → String
  | conjunction => "(1 = 1)"
  | disjunction => "(1 = 0)"

theorem ofWord?_word (connective : Connective) : ofWord? connective.word = some connective := by
  cases connective <;> decide

end Connective

namespace Comparison

/-- The word of a comparison in a query. -/
def word : Comparison → String
  | equal => "="
  | less => "<"
  | greater => ">"
  | atMost => "<="
  | atLeast => ">="
  | unequal => "<>"
  | like => "like"
  | unlike => "not like"

/-- The comparison of a word. -/
def ofWord? (word : String) : Option Comparison :=
  [("=", equal), ("<", less), (">", greater), ("<=", atMost), (">=", atLeast), ("<>", unequal),
    ("like", like), ("not like", unlike)].lookup word

/-- The comparison in a statement. -/
def sql : Comparison → String
  | equal => "="
  | less => "<"
  | greater => ">"
  | atMost => "<="
  | atLeast => ">="
  | unequal => "<>"
  | like => "LIKE"
  | unlike => "NOT LIKE"

theorem ofWord?_word (comparison : Comparison) : ofWord? comparison.word = some comparison := by
  cases comparison <;> decide

end Comparison

namespace Membership

/-- The word of a membership test in a query. -/
def word : Membership → String
  | among => "in"
  | notAmong => "not in"

/-- The membership test of a word. -/
def ofWord? (word : String) : Option Membership :=
  [("in", among), ("not in", notAmong)].lookup word

/-- The membership test in a statement. -/
def sql : Membership → String
  | among => "IN"
  | notAmong => "NOT IN"

theorem ofWord?_word (membership : Membership) : ofWord? membership.word = some membership := by
  cases membership <;> decide

end Membership

/-! ### Equality -/

namespace Condition

mutual

/-- Whether two conditions are equal. -/
def decEq : (a b : Condition) → Decidable (a = b)
  | group c ps, group d qs =>
    match decEqList ps qs with
    | isTrue h =>
      if hc : c = d then isTrue (by rw [h, hc]) else isFalse (by intro e; cases e; exact hc rfl)
    | isFalse h => isFalse (by intro e; cases e; exact h rfl)
  | membership c o vs, membership d p ws =>
    if h : c = d ∧ o = p ∧ vs = ws then
      isTrue (by obtain ⟨h₁, h₂, h₃⟩ := h; rw [h₁, h₂, h₃])
    else isFalse (by intro e; cases e; exact h ⟨rfl, rfl, rfl⟩)
  | comparison c o v, comparison d p w =>
    if h : c = d ∧ o = p ∧ v = w then
      isTrue (by obtain ⟨h₁, h₂, h₃⟩ := h; rw [h₁, h₂, h₃])
    else isFalse (by intro e; cases e; exact h ⟨rfl, rfl, rfl⟩)
  | group .., membership .. => isFalse (by intro e; cases e)
  | group .., comparison .. => isFalse (by intro e; cases e)
  | membership .., group .. => isFalse (by intro e; cases e)
  | membership .., comparison .. => isFalse (by intro e; cases e)
  | comparison .., group .. => isFalse (by intro e; cases e)
  | comparison .., membership .. => isFalse (by intro e; cases e)

/-- Whether two lists of conditions are equal. -/
def decEqList : (as bs : List Condition) → Decidable (as = bs)
  | [], [] => isTrue rfl
  | [], _ :: _ => isFalse (by intro e; cases e)
  | _ :: _, [] => isFalse (by intro e; cases e)
  | a :: as, b :: bs =>
    match decEq a b with
    | isTrue h =>
      match decEqList as bs with
      | isTrue hs => isTrue (by rw [h, hs])
      | isFalse hs => isFalse (by intro e; cases e; exact hs rfl)
    | isFalse h => isFalse (by intro e; cases e; exact h rfl)

end

instance : DecidableEq Condition := decEq

/-! ### Half-filled conditions -/

mutual

/-- Every leaf names a column and has something to compare it with. -/
def isComplete : Condition → Bool
  | group _ parts => allComplete parts
  | membership column _ values => column ≠ "" && !values.isEmpty
  | comparison column _ value => column ≠ "" && value ≠ ""

/-- All conditions of a list are complete. -/
def allComplete : List Condition → Bool
  | [] => true
  | part :: rest => part.isComplete && allComplete rest

end

theorem allComplete_eq (parts : List Condition) : allComplete parts = parts.all isComplete := by
  induction parts with
  | nil => rfl
  | cons part rest ih => rw [allComplete, ih, List.all_cons]

/-- The condition without the incomplete parts of its group, if anything is left of it. -/
def complete? : Condition → Option Condition
  | group connective parts =>
    let complete := parts.filter isComplete
    if complete.isEmpty then none else some (group connective complete)
  | leaf => if leaf.isComplete then some leaf else none

/-! ### Parts of a condition -/

mutual

/-- The leaves, from left to right. -/
def leaves : Condition → List Condition
  | group _ parts => leavesOf parts
  | leaf => [leaf]

/-- The leaves of all conditions of a list. -/
def leavesOf : List Condition → List Condition
  | [] => []
  | part :: rest => part.leaves ++ leavesOf rest

end

mutual

/-- The columns of the leaves, from left to right. -/
def columns : Condition → List String
  | group _ parts => columnsOf parts
  | membership column _ _ => [column]
  | comparison column _ _ => [column]

/-- The columns of all conditions of a list. -/
def columnsOf : List Condition → List String
  | [] => []
  | part :: rest => part.columns ++ columnsOf rest

end

mutual

/-- The values of the leaves, from left to right. -/
def values : Condition → List String
  | group _ parts => valuesOf parts
  | membership _ _ values => values
  | comparison _ _ value => [value]

/-- The values of all conditions of a list. -/
def valuesOf : List Condition → List String
  | [] => []
  | part :: rest => part.values ++ valuesOf rest

end

/-- The first column of a condition that a table lacks is an error. -/
def check (condition : Condition) (ref : TableRef) (table : Table) : Except QueryError Unit :=
  match condition.columns.find? (!table.hasColumn ·) with
  | some column => .error (.unknownColumn ref column)
  | none => .ok ()

end Condition

/-! ### The text of a condition -/

/-- A text as a literal: between single quotes, with every single quote inside written twice. -/
def quoteLiteral (text : String) : String :=
  String.ofList ('\'' :: text.toList.flatMap (fun c => if c = '\'' then [c, c] else [c]) ++ ['\''])

namespace Condition

mutual

/-- The text of a condition whose columns are qualified by a name. A group stands in brackets, so
that no order of precedence matters. -/
def render (qualifier : String) : Condition → String
  | group connective [] => connective.neutral
  | group connective (part :: rest) =>
    "(" ++ (" " ++ connective.sql ++ " ").intercalate (renderAll qualifier (part :: rest)) ++ ")"
  | membership column operator values =>
    qualifier ++ "." ++ column ++ " " ++ operator.sql ++ " (" ++
      ",".intercalate (values.map quoteLiteral) ++ ")"
  | comparison column operator value =>
    qualifier ++ "." ++ column ++ " " ++ operator.sql ++ " " ++ quoteLiteral value

/-- The texts of all conditions of a list. -/
def renderAll (qualifier : String) : List Condition → List String
  | [] => []
  | part :: rest => part.render qualifier :: renderAll qualifier rest

end

/-- The text of a condition on a table, its columns qualified by an alias or else by the table.
All columns must exist. -/
def renderOn (condition : Condition) (ref : TableRef) (table : Table) (joinAlias : Option String) :
    Except QueryError String := do
  condition.check ref table
  return condition.render (joinAlias.getD ref.text)

theorem renderAll_eq (qualifier : String) (parts : List Condition) :
    renderAll qualifier parts = parts.map (render qualifier) := by
  induction parts with
  | nil => rfl
  | cons part rest ih => rw [renderAll, ih, List.map_cons]

theorem check_eq_ok_iff {condition : Condition} {ref : TableRef} {table : Table} :
    condition.check ref table = .ok () ↔
      ∀ column ∈ condition.columns, table.hasColumn column = true := by
  unfold check
  split
  · rename_i column h
    have h₁ := List.mem_of_find?_eq_some h
    have h₂ := List.find?_some h
    simp only [reduceCtorEq, false_iff]
    intro hall
    simp [hall column h₁] at h₂
  · rename_i h
    simpa using h

end Condition

end JoinPlan
