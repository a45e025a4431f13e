import JoinPlan.Catalog.Basic
import JoinPlan.Text.Word

/-!
# Declared types in SQLite

SQLite takes any text as the type of a column and goes by what the text contains. A few standard
names are reported in capitals whatever their case; every other type is reported as declared.

## Main definitions

* `Affinity`, `Affinity.ofDeclared`: how SQLite stores values of a declared type.
* `kindOfDeclared`: the kind of values that a declared type suggests.
* `reportedType`: the type as SQLite reports it.
-/

namespace JoinPlan

namespace Sqlite

/-- A text with its small ASCII letters made capitals. -/
def asciiUpper (text : String) : List Char :=
  text.toList.map Char.toUpper

/-- Two names are equal but for the case of ASCII letters. -/
def sameName (a b : String) : Bool :=
  asciiUpper a = asciiUpper b

/-- How values of a column are stored by preference. -/
inductive Affinity where
  | integer
  | text
  | blob
  | real
  | numeric
  deriving DecidableEq, Repr

/-- One of the words occurs in the type, which is in capitals. -/
def mentions (upper : List Char) (words : List String) : Bool :=
  words.any fun word => Text.occursIn word.toList upper

/-- The affinity of a declared type, by the first rule that applies. -/
def Affinity.ofDeclared (declared : String) : Affinity :=
  let upper := asciiUpper declared
  if mentions upper ["INT"] then integer
  else if mentions upper ["CHAR", "CLOB", "TEXT"] then text
  else if mentions upper ["BLOB"] || upper.isEmpty then blob
  else if mentions upper ["REAL", "FLOA", "DOUB"] then real
  else numeric

/-- The kind of values that a declared type suggests. Truth values and times are stored as
numbers, but told by their names. -/
def kindOfDeclared (declared : String) : DataKind :=
  let upper := asciiUpper declared
  if mentions upper ["BOOL"] then .boolean
  else if mentions upper ["DATE", "TIME"] then .datetime
  else
    match Affinity.ofDeclared declared with
    | .text => .text
    | .blob => .binary
    | .integer | .real | .numeric => .number

/-- The types whose names SQLite knows. -/
def standardTypes : List String := ["ANY", "BLOB", "INT", "INTEGER", "REAL", "TEXT"]

/-- The type as it is reported: a standard one in capitals, any other as declared. -/
def reportedType (declared : String) : String :=
  (standardTypes.find? (sameName declared)).getD declared

end Sqlite

end JoinPlan
