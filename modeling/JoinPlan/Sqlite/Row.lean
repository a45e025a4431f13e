import JoinPlan.Execution.Database
import JoinPlan.Text.Utf8

/-!
# Rows of a SQLite database

## Main definitions

* `Sqlite.Value`, `Sqlite.Value.toJson`: a stored value, and how it appears in a row.
* `Sqlite.rowOf`: a row of values under the names of its columns.
* `Sqlite.EmptyDatabase`: a database whose tables hold no rows.
* `Sqlite.missingFile`: why there is no database at a path.
-/

namespace JoinPlan

namespace Sqlite

/-- A stored value. -/
inductive Value where
  | null
  | integer (value : Int)
  | real (value : Float)
  /-- A text, as the bytes that are stored for it. -/
  | text (bytes : List Nat)
  | blob (bytes : List Nat)
  deriving DecidableEq, Repr

/-- A value as it appears in a row. JSON has no infinities; bytes appear as numbers. -/
def Value.toJson : Value → Json
  | null => .null
  | integer value => .num (.int value)
  | real value => if value.isNaN || value.isInf then .null else .num (.float value)
  | text bytes => .str (Text.Utf8.decode bytes)
  | blob bytes => .arr (bytes.map .ofNat)

/-- A row under the names of its columns. Of columns with one name the last value stands, in the
place of the first. -/
def rowOf (columns : List String) (values : List Value) : Row :=
  Json.Members.ofPairs (columns.zip (values.map Value.toJson))

/-- A database whose tables hold no rows. -/
inductive EmptyDatabase where
  | empty

/-- Without rows every statement has none, and their number is zero. -/
instance : Database EmptyDatabase where
  exec db
    | .rows _ _ => (.ok [], db)
    | .count _ => (.ok [[("count", .ofNat 0)]], db)
    | .text _ => (.ok [], db)

/-- A database is not created by opening it: the file at the path must be there. -/
def missingFile (path : String) : QueryError :=
  .connectionFailed ("Database file not found: " ++ path)

end Sqlite

end JoinPlan
