import JoinPlan.Catalog.Assembly
import JoinPlan.Sql.Related

/-!
# Databases that answer requests

Of a database only this is needed: that it answers a request with rows, or with the reason why it
does not. A database may change by being asked.

## Main definitions

* `Request`, `Request.sql`: what can be asked, and its text.
* `Database`: anything that answers requests.
* `ScriptedDatabase`: a database whose columns, foreign keys and answers are laid down in advance.
  It remembers every statement it has been asked.
-/

namespace JoinPlan

/-- What a database is asked. -/
inductive Request where
  /-- The rows of a statement, at most so many. -/
  | rows (statement : Statement) (limit : Option Nat)
  /-- How many rows a statement has. -/
  | count (statement : Statement)
  /-- A statement that is only known as text. -/
  | text (sql : String)
  deriving DecidableEq, Repr

/-- The text of a request. -/
def Request.sql : Request → String
  | rows statement limit => statement.renderLimited limit
  | count statement => statement.renderCount
  | text sql => sql

/-- Anything that answers requests. -/
class Database (δ : Type) where
  /-- The answer to a request, and the database after it. -/
  exec : δ → Request → Except QueryError (List Row) × δ

/-- A database that is laid down in advance. -/
structure ScriptedDatabase where
  columns : List ListedColumn
  relationships : List Relationship
  /-- The rows with which every request is answered. -/
  response : Option (List Row)
  /-- Every statement it has been asked, oldest first. -/
  executed : List String
  deriving Inhabited

namespace ScriptedDatabase

/-- A database of which nothing is laid down yet. -/
def empty : ScriptedDatabase := ⟨[], [], none, []⟩

/-- The database with one more column. Its type is called after its kind, and it may be null
unless it is part of the primary key. -/
def defineColumn (db : ScriptedDatabase) (table : TableRef) (name : String) (kind : DataKind)
    (inPrimaryKey : Bool) : ScriptedDatabase :=
  { db with
    columns := db.columns ++ [⟨table, name, kind.word, kind, !inPrimaryKey, inPrimaryKey⟩] }

/-- The database with one more foreign key. -/
def defineRelationship (db : ScriptedDatabase) (key : Relationship) : ScriptedDatabase :=
  { db with relationships := db.relationships ++ [key] }

/-- The database that answers with the given rows from now on. -/
def respondWith (db : ScriptedDatabase) (rows : List Row) : ScriptedDatabase :=
  { db with response := some rows }

/-- The catalog of what is laid down. -/
def catalog (db : ScriptedDatabase) : Catalog :=
  .assemble db.columns db.relationships

/-- The answer to a request, which is remembered whatever the answer. -/
def exec (db : ScriptedDatabase) (request : Request) :
    Except QueryError (List Row) × ScriptedDatabase :=
  let asked := { db with executed := db.executed ++ [request.sql] }
  match db.response with
  | some rows => (.ok rows, asked)
  | none => (.error .noScriptedRows, asked)

instance : Database ScriptedDatabase := ⟨exec⟩

@[simp] theorem executed_exec (db : ScriptedDatabase) (request : Request) :
    (db.exec request).2.executed = db.executed ++ [request.sql] := by
  unfold exec
  cases db.response <;> rfl

end ScriptedDatabase

end JoinPlan
