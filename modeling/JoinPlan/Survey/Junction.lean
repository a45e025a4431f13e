import JoinPlan.Catalog.Basic
import JoinPlan.Text.Word

/-!
# Entities and junctions

A junction is a table that only links others, as `movie_actors` links movies and actors. It is
told by its names: at least two of its columns refer to other tables, and each of these is named
after something that the table's own name mentions, in the singular or plural. Every other table
is an entity.

## Main definitions

* `linkingColumns`: the columns of a table that refer to other tables.
* `isJunction`, `EntitySplit`, `Catalog.entitySplit`.
-/

namespace JoinPlan

/-- The names of the columns that refer to another table. -/
def linkingColumns (ref : TableRef) (table : Table) : List String :=
  (table.columns.filter fun column => column.outbound.any (·.foreignTable ≠ ref)).map (·.name)

/-- The table's name mentions the first word of the column's name, or its plural. -/
def mentionsColumn (tableName column : String) : Bool :=
  match Text.firstWord? (Text.snakeCase column) with
  | some word =>
    Text.occursIn word tableName.toList || Text.occursIn (Text.plural word) tableName.toList
  | none => false

/-- The table only links others, as far as its names tell. -/
def isJunction (ref : TableRef) (table : Table) : Bool :=
  let linking := linkingColumns ref table
  2 ≤ linking.length && linking.all (mentionsColumn table.name)

/-- The tables of a catalog in two lists. -/
structure EntitySplit where
  entities : List TableRef
  junctions : List TableRef
  deriving DecidableEq, Repr

/-- The entities and the junctions, each in catalog order. -/
def Catalog.entitySplit (catalog : Catalog) : EntitySplit :=
  let (junctions, entities) := catalog.tables.partition fun (ref, table) => isJunction ref table
  ⟨entities.map (·.1), junctions.map (·.1)⟩

end JoinPlan
