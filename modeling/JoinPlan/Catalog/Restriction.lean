import JoinPlan.Catalog.Basic

/-!
# Leaving tables out of a catalog

`Catalog.without` drops tables together with every foreign key that leads to them or comes from
them, so that what is left never mentions a dropped table.
-/

namespace JoinPlan

/-- The column without its keys to and from the tables of a list. -/
def Column.without (column : Column) (ignored : List TableRef) : Column :=
  { column with
    outbound := column.outbound.filter fun key => !ignored.contains key.foreignTable
    inbound := column.inbound.filter fun key => !ignored.contains key.localTable }

/-- The table without its keys to and from the tables of a list. -/
def Table.without (table : Table) (ignored : List TableRef) : Table :=
  { table with columns := table.columns.map (·.without ignored) }

/-- The schema without the tables of a list and without any key to or from them. -/
def Schema.without (schema : Schema) (ignored : List TableRef) : Schema :=
  { schema with
    tables := (schema.tables.filter fun table =>
      !ignored.contains ⟨schema.name, table.name⟩).map (·.without ignored) }

/-- The catalog without the tables of a list and without any key to or from them. A schema that
loses all its tables stays. -/
def Catalog.without (catalog : Catalog) (ignored : List TableRef) : Catalog :=
  ⟨catalog.schemas.map (·.without ignored)⟩

@[simp] theorem Column.without_nil (column : Column) : column.without [] = column := by
  simp [Column.without, List.filter_eq_self.mpr]

@[simp] theorem Table.without_nil (table : Table) : table.without [] = table := by
  simp [Table.without]

/-- Leaving out nothing changes nothing. -/
@[simp] theorem Catalog.without_nil (catalog : Catalog) : catalog.without [] = catalog := by
  have h : (fun schema : Schema => schema.without []) = id := by
    funext schema
    simp [Schema.without, List.filter_eq_self.mpr]
  simp [Catalog.without, h]

end JoinPlan
