import JoinPlan.Proofs.RowParts

/-!
# Calls on a database

A call is compiled before the database is asked. One that does not compile leaves the database as it
was. Every other call asks a single statement, and from then on nothing can fail but the database
itself and a count that it answers with no number: whatever is looked up to divide up the rows was
found before, when the statement was compiled.

So a database that is called any number of times remembers the statements of the calls that compile,
one for each and in the order of the calls, and nothing else about it changes.

## Main definitions

* `Call`, `Call.perform`: a call, and what comes of it.
* `Call.sql`: the statement of a call, by the compiled query that it belongs to.
* `Call.Kept`: what a call may do to a database, and how it may end.
* `ScriptedDatabase.session`: one call after the other.

## Main results

* `Query.prepare_unlimited`: a query compiles to the same statement without its limit.
* `Call.kept_perform`: one call.
* `ScriptedDatabase.kept_session`: any number of calls.
-/

namespace JoinPlan

variable {catalog : Catalog} {query : Query}

/-- A call on a database. -/
inductive Call where
  | run (query : Query)
  | count (query : Query)
  | fetchRelated (localTable : TableRef) (row : Row) (foreignTable : TableRef)

/-- What a call results in. -/
inductive CallResult where
  | rows (result : QueryResult)
  | count (result : CountResult)
  | related (result : RelatedRows)

namespace Call

/-- The statement of a call, or why the call does not compile. A query that is run bears its limit,
and one that is counted bears none. -/
def sql (catalog : Catalog) : Call → Except QueryError String
  | run query => (query.prepare catalog).map fun prepared =>
    prepared.sql ++ query.limit.elim "" fun n => " LIMIT " ++ toString n
  | count query => (query.prepare catalog).map fun prepared =>
    "SELECT COUNT(*) AS count FROM (" ++ prepared.sql ++ ") AS counted_rows"
  | fetchRelated localTable row foreignTable =>
    (catalog.relatedRows localTable row foreignTable).map Statement.render

/-- What comes of a call, and the database after it. -/
def perform (catalog : Catalog) (db : ScriptedDatabase) :
    Call → Except QueryError CallResult × ScriptedDatabase
  | run query => (query.run catalog db).map (·.map .rows) id
  | count query => (query.count catalog db).map (·.map .count) id
  | fetchRelated localTable row foreignTable =>
    (catalog.fetchRelated localTable row foreignTable db).map (·.map .related) id

/-- How a call ends whose statement has been asked. Without rows to answer with the database fails.
With rows the call succeeds, unless it asked for a number and there is none among them. -/
def EndsWith (call : Call) (sql : String) (outcome : Except QueryError CallResult) :
    Option (List Row) → Prop
  | none => outcome = .error .noScriptedRows
  | some rows =>
    match call with
    | run _ => ∃ result, outcome = .ok (.rows result) ∧ result.sql = sql ∧
      result.rows.length = rows.length
    | count _ =>
      (∃ result, outcome = .ok (.count result) ∧ countOfRows? rows = some result.count) ∨
        outcome = .error .invalidCount ∧ countOfRows? rows = none
    | fetchRelated _ _ _ => outcome = .ok (.related ⟨sql, rows⟩)

/-- A call that does not compile fails for that reason and leaves the database alone. Any other one
asks its statement, once, and nothing else about the database changes. -/
structure Kept (catalog : Catalog) (call : Call) (db after : ScriptedDatabase)
    (outcome : Except QueryError CallResult) : Prop where
  refused : ∀ e, call.sql catalog = .error e → outcome = .error e ∧ after = db
  asked : ∀ sql, call.sql catalog = .ok sql →
    after = { db with executed := db.executed ++ [sql] } ∧ call.EndsWith sql outcome db.response

end Call

/-! ### Asking a database -/

section

variable {α β : Type} {compiled : Except QueryError α} {request : α → Request}
  {finish : α → List Row → Except QueryError β} {db : ScriptedDatabase}

theorem ask_error {e : QueryError} (h : compiled = .error e) :
    ask db compiled request finish = (.error e, db) := by
  subst h
  rfl

/-- What has been compiled is asked once, and the answer is made into a result. -/
theorem ask_ok {value : α} (h : compiled = .ok value) :
    ask db compiled request finish =
      ((match db.response with
        | none => .error .noScriptedRows
        | some rows => finish value rows),
        { db with executed := db.executed ++ [(request value).sql] }) := by
  subst h
  simp only [ask, Database.exec, ScriptedDatabase.exec]
  cases db.response <;> rfl

end

theorem Statement.renderLimited_eq (statement : Statement) (limit : Option Nat) :
    statement.renderLimited limit =
      statement.render ++ limit.elim "" fun n => " LIMIT " ++ toString n := by
  cases limit with
  | none => rw [renderLimited, Option.elim_none, String.append_empty]
  | some n => rw [renderLimited, Option.elim_some, String.append_assoc]

/-- **A query compiles to the same statement without its limit.** -/
theorem Query.prepare_unlimited (catalog : Catalog) (query : Query) :
    { query with limit := none }.prepare catalog =
      (query.prepare catalog).map fun prepared => { prepared with limit := none } := by
  rw [prepare, prepare, map_bind_eq]
  refine bind_congr fun tree => ?_
  rw [map_bind_eq]
  rfl

/-! ### One call -/

namespace ScriptedDatabase

/-- The statements of the calls that compile, in order. -/
def statements (calls : List (Catalog × Call)) : List String :=
  calls.filterMap fun (catalog, call) => (call.sql catalog).toOption

/-- The database that remembers the statements of some calls besides those before. -/
def remembering (db : ScriptedDatabase) (calls : List (Catalog × Call)) : ScriptedDatabase :=
  { db with executed := db.executed ++ statements calls }

@[simp] theorem remembering_nil (db : ScriptedDatabase) : db.remembering [] = db := by
  simp [remembering, statements]

theorem remembering_cons (db : ScriptedDatabase) (call : Catalog × Call)
    (rest : List (Catalog × Call)) :
    db.remembering (call :: rest) = (db.remembering [call]).remembering rest := by
  simp only [remembering, statements, List.append_assoc, ← List.filterMap_append,
    List.singleton_append]

theorem remembering_of_error (db : ScriptedDatabase) {call : Call} {e : QueryError}
    (h : call.sql catalog = .error e) : db.remembering [(catalog, call)] = db := by
  simp [remembering, statements, h, Except.toOption]

theorem remembering_of_ok (db : ScriptedDatabase) {call : Call} {sql : String}
    (h : call.sql catalog = .ok sql) :
    db.remembering [(catalog, call)] = { db with executed := db.executed ++ [sql] } := by
  simp [remembering, statements, h, Except.toOption]

end ScriptedDatabase

namespace Call

/-- A call that comes down to one request keeps to what calls may do, if it ends as it should once
the request is answered. -/
theorem kept_ask {α β : Type} {call : Call} {compiled : Except QueryError α}
    {request : α → Request} {finish : α → List Row → Except QueryError β} {pack : β → CallResult}
    (db : ScriptedDatabase)
    (hsql : call.sql catalog = compiled.map fun value => (request value).sql)
    (hfinish : ∀ value rows, compiled = .ok value →
      call.EndsWith (request value).sql ((finish value rows).map pack) (some rows)) :
    call.Kept catalog db (ask db compiled request finish).2
      ((ask db compiled request finish).1.map pack) := by
  cases hcompiled : compiled with
  | error e =>
    rw [ask_error rfl]
    rw [hcompiled] at hsql
    refine ⟨fun e' he => ?_, fun sql hok => ?_⟩
    · cases hsql.symm.trans he
      exact ⟨rfl, rfl⟩
    · cases hsql.symm.trans hok
  | ok value =>
    rw [ask_ok rfl]
    rw [hcompiled] at hsql
    refine ⟨fun e' he => ?_, fun sql hok => ?_⟩
    · cases hsql.symm.trans he
    · cases hsql.symm.trans hok
      refine ⟨rfl, ?_⟩
      cases hresponse : db.response with
      | none => exact rfl
      | some rows => exact hfinish value rows hcompiled

theorem kept_run (catalog : Catalog) (query : Query) (db : ScriptedDatabase) :
    (run query).Kept catalog db (query.run catalog db).2 ((query.run catalog db).1.map .rows) := by
  refine kept_ask db ?_ fun prepared rows hprepared => ?_
  · simp only [sql, Request.sql, Statement.renderLimited_eq, Prepared.sql]
  · -- all tables of the layout were found when the statement was compiled
    obtain ⟨tree, statement, -, hstatement, rfl⟩ := Query.prepare_eq_ok_iff.mp hprepared
    obtain ⟨_, layout, -, hlayout, -⟩ := JoinTree.exists_rowLayout hstatement
    rw [Prepared.joinsList, hlayout]
    exact ⟨_, rfl, rfl, List.length_map _⟩

theorem kept_count (catalog : Catalog) (query : Query) (db : ScriptedDatabase) :
    (count query).Kept catalog db (query.count catalog db).2
      ((query.count catalog db).1.map .count) := by
  refine kept_ask db ?_ fun prepared rows _ => ?_
  · rw [Query.prepare_unlimited, sql]
    cases query.prepare catalog <;> rfl
  · cases hcount : countOfRows? rows with
    | none => exact .inr ⟨rfl, hcount⟩
    | some n => exact .inl ⟨_, rfl, hcount⟩

theorem kept_fetchRelated (catalog : Catalog) (localTable : TableRef) (row : Row)
    (foreignTable : TableRef) (db : ScriptedDatabase) :
    (fetchRelated localTable row foreignTable).Kept catalog db
      (catalog.fetchRelated localTable row foreignTable db).2
      ((catalog.fetchRelated localTable row foreignTable db).1.map .related) :=
  kept_ask db rfl fun _ _ _ => rfl

/-- **A call asks its statement once if it compiles, and nothing otherwise.** -/
theorem kept_perform (catalog : Catalog) (call : Call) (db : ScriptedDatabase) :
    call.Kept catalog db (call.perform catalog db).2 (call.perform catalog db).1 := by
  cases call with
  | run query => exact kept_run catalog query db
  | count query => exact kept_count catalog query db
  | fetchRelated localTable row foreignTable =>
    exact kept_fetchRelated catalog localTable row foreignTable db

/-- The database remembers the statement of a call that compiles. -/
theorem Kept.after_eq {call : Call} {db after : ScriptedDatabase}
    {outcome : Except QueryError CallResult} (h : call.Kept catalog db after outcome) :
    after = db.remembering [(catalog, call)] := by
  cases hsql : call.sql catalog with
  | error e => rw [db.remembering_of_error hsql, (h.refused e hsql).2]
  | ok sql => rw [db.remembering_of_ok hsql, (h.asked sql hsql).1]

end Call

/-! ### Any number of calls -/

namespace ScriptedDatabase

/-- Calls one after the other, each over a catalog: what comes of each, and the database after
it. -/
def session (db : ScriptedDatabase) :
    List (Catalog × Call) → List (Except QueryError CallResult × ScriptedDatabase)
  | [] => []
  | (catalog, call) :: rest =>
    let step := call.perform catalog db
    step :: step.2.session rest

/-- **A database remembers the statements of the calls that compile**, one for each and in the order
of the calls, whether or not there are rows to answer with. Each call in turn keeps to what calls
may do. -/
theorem kept_session (db : ScriptedDatabase) (calls : List (Catalog × Call)) :
    (db.session calls).length = calls.length ∧
    ∀ (k : Nat) (catalog : Catalog) (call : Call), calls[k]? = some (catalog, call) →
      ∃ outcome, (db.session calls)[k]? = some (outcome, db.remembering (calls.take (k + 1))) ∧
        call.Kept catalog (db.remembering (calls.take k)) (db.remembering (calls.take (k + 1)))
          outcome := by
  induction calls generalizing db with
  | nil => exact ⟨rfl, fun _ _ _ h => by cases h⟩
  | cons first rest ih =>
    obtain ⟨catalog, call⟩ := first
    have hstep := call.kept_perform catalog db
    have hafter := hstep.after_eq
    obtain ⟨hlength, hrest⟩ := ih (call.perform catalog db).2
    refine ⟨congrArg Nat.succ hlength, fun k => ?_⟩
    cases k with
    | zero =>
      rintro _ _ ⟨⟩
      rw [List.take_zero, remembering_nil, List.take_succ_cons, List.take_zero, ← hafter]
      exact ⟨_, rfl, hstep⟩
    | succ k =>
      intro catalog' call' hcall
      obtain ⟨outcome, houtcome, hkept⟩ := hrest k catalog' call' hcall
      rw [hafter, ← remembering_cons, ← remembering_cons] at hkept
      rw [hafter, ← remembering_cons, ← hafter] at houtcome
      rw [List.take_succ_cons, List.take_succ_cons]
      exact ⟨outcome, houtcome, hkept⟩

end ScriptedDatabase

/-- The customers of the shop, at most so many. -/
def customersUpTo (limit : Option Nat) : Query :=
  ⟨⟨⟨"shop", "customers"⟩, [], .columns ["id"], none, [], []⟩, limit⟩

/-- Five customers, the rows of a table that does not exist, and the number of all customers. -/
def shopCalls : List (Catalog × Call) :=
  [(shop, .run (customersUpTo (some 5))),
    (shop, .fetchRelated ⟨"shop", "crates"⟩ [] ⟨"shop", "orders"⟩),
    (shop, .count (customersUpTo (some 5)))]

/-- The statement for all customers. -/
def allCustomersSql : String :=
  "SELECT shop__customers__1.id AS shop__customers__1__id " ++
    "FROM shop.customers AS shop__customers__1 GROUP BY shop__customers__1.id"

theorem kept_session_shop :
    shopCalls[2]? = some (shop, .count (customersUpTo (some 5))) ∧
    (parcelDatabase.session shopCalls)[2]? = some (.error .invalidCount,
      { parcelDatabase with
        executed := [allCustomersSql ++ " LIMIT 5",
          "SELECT COUNT(*) AS count FROM (" ++ allCustomersSql ++ ") AS counted_rows"] }) := by
  obtain ⟨outcome, houtcome, hkept⟩ :=
    (parcelDatabase.kept_session shopCalls).2 2 shop (.count (customersUpTo (some 5))) rfl
  have hsql : (Call.count (customersUpTo (some 5))).sql shop =
      .ok ("SELECT COUNT(*) AS count FROM (" ++ allCustomersSql ++ ") AS counted_rows") := by
    decide +kernel
  have hstatements : ScriptedDatabase.statements (shopCalls.take (2 + 1)) =
      [allCustomersSql ++ " LIMIT 5",
        "SELECT COUNT(*) AS count FROM (" ++ allCustomersSql ++ ") AS counted_rows"] := by
    decide +kernel
  have hcount : countOfRows? (parcelDatabase.response.getD []) = none := by
    decide +kernel
  rw [ScriptedDatabase.remembering, hstatements] at houtcome
  refine ⟨rfl, ?_⟩
  -- the rows hold no number, so the last call ends with an error
  obtain ⟨-, ⟨result, -, hsome⟩ | ⟨rfl, -⟩⟩ := hkept.asked _ hsql
  · cases hcount.symm.trans hsome
  · exact houtcome

end JoinPlan
