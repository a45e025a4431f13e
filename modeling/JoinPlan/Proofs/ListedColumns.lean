import JoinPlan.Catalog.Assembly
import JoinPlan.Catalog.Restriction
import JoinPlan.Proofs.Outcome
import Mathlib.Data.List.Nodup

/-!
# The columns that a catalog lists

A catalog is nested: schemas hold tables, and tables hold columns. Here it is looked at as what it
says: under which table it lists which column. Assembling a catalog lists the reported columns with
their keys, and leaving tables out drops their columns and the keys to and from them.

Look-ups take the first match, so they find what is listed only where no name is given twice.
Assembled catalogs give none twice.

## Main definitions

* `Catalog.Lists`: a column is listed under a table.
* `Catalog.upsert`: changing the element of a name or adding it, which is how a column gets into its
  table and a table into its schema.
* `Catalog.Filled`: every table has columns.
* `Catalog.Unambiguous`: no two schemas have the same name, and no two tables of a schema.
* `Catalog.HasTable`, `Catalog.HasColumn`, `Catalog.HasKeys`: what can be said to exist.

## Main results

* `Catalog.lists_assemble_iff`, `Catalog.lists_without_iff`: which columns are listed.
* `Catalog.unambiguous_assemble`, `Catalog.Unambiguous.without`: names stay apart.
* `Catalog.Unambiguous.findTable_eq_ok`: the table that is listed is the one that is found.
* `Catalog.Unambiguous.hasColumn_iff`: its columns are those that exist.
-/

namespace JoinPlan

/-- Where keys stay apart, looking for the key of an element finds that element. -/
theorem find?_eq_some_of_nodup {α β : Type} [DecidableEq β] {key : α → β} {xs : List α} {x : α}
    (h : (xs.map key).Nodup) (hx : x ∈ xs) : xs.find? (key · = key x) = some x := by
  induction xs with
  | nil => cases hx
  | cons first rest ih =>
    rw [List.map_cons, List.nodup_cons] at h
    rcases List.mem_cons.mp hx with rfl | hrest
    · rw [List.find?_cons_of_pos (by simp)]
    · have hne : key first ≠ key x := fun heq => h.1 (heq ▸ List.mem_map_of_mem hrest)
      rw [List.find?_cons_of_neg (by simpa using hne), ih h.2 hrest]

namespace Catalog

variable {catalog : Catalog} {ref table : TableRef} {column listed : Column}
  {columns : List ListedColumn} {keys : List Relationship} {ignored : List TableRef}

/-- The catalog lists a column under a table. -/
def Lists (catalog : Catalog) (ref : TableRef) (column : Column) : Prop :=
  ∃ schema ∈ catalog.schemas, schema.name = ref.schema ∧
    ∃ table ∈ schema.tables, table.name = ref.table ∧ column ∈ table.columns

theorem mem_tables_iff {entry : Table} :
    (ref, entry) ∈ catalog.tables ↔
      ∃ schema ∈ catalog.schemas, schema.name = ref.schema ∧
        entry ∈ schema.tables ∧ entry.name = ref.table := by
  simp only [tables, List.mem_flatMap, List.mem_map, Prod.mk.injEq]
  constructor
  · rintro ⟨schema, hschema, _, hentry, rfl, rfl⟩
    exact ⟨schema, hschema, rfl, hentry, rfl⟩
  · rintro ⟨schema, hschema, hname, hentry, hname'⟩
    exact ⟨schema, hschema, entry, hentry, by rw [hname, hname'], rfl⟩

theorem lists_iff :
    catalog.Lists ref column ↔ ∃ entry, (ref, entry) ∈ catalog.tables ∧ column ∈ entry.columns := by
  simp only [mem_tables_iff]
  constructor
  · rintro ⟨schema, hschema, hname, entry, hentry, hname', hcolumn⟩
    exact ⟨entry, ⟨schema, hschema, hname, hentry, hname'⟩, hcolumn⟩
  · rintro ⟨entry, ⟨schema, hschema, hname, hentry, hname'⟩, hcolumn⟩
    exact ⟨schema, hschema, hname, entry, hentry, hname', hcolumn⟩

/-! ### Adding columns -/

section

variable {α : Type} {name : α → String} {key : String} {change : α → α} {fresh : α} {xs : List α}

/-- The list in which the first element of a name is changed, with a new element at the end if there
is none. -/
def upsert (name : α → String) (key : String) (change : α → α) (fresh : α) : List α → List α
  | [] => [fresh]
  | x :: rest => if name x = key then change x :: rest else x :: upsert name key change fresh rest

/-- What holds of an element of a name: what held before, and what is new for that one name. -/
theorem mem_upsert_iff {holds : α → Prop} {extra : Prop} {other : String}
    (hname : ∀ x, name (change x) = name x) (hfresh : name fresh = key)
    (hchange : ∀ x, holds (change x) ↔ holds x ∨ extra) (hnew : holds fresh ↔ extra) :
    (∃ x ∈ upsert name key change fresh xs, name x = other ∧ holds x) ↔
      (∃ x ∈ xs, name x = other ∧ holds x) ∨ (key = other ∧ extra) := by
  induction xs with
  | nil => simp [upsert, hfresh, hnew]
  | cons first rest ih =>
    rw [upsert]
    split_ifs with hfirst
    · simp only [List.mem_cons, exists_eq_or_imp, hname, hchange, hfirst]
      rw [and_or_left, or_right_comm]
    · simp only [List.mem_cons, exists_eq_or_imp, ih, or_assoc]

theorem mem_names_upsert (hname : ∀ x, name (change x) = name x) (hfresh : name fresh = key)
    {other : String} (h : other ∈ (upsert name key change fresh xs).map name) :
    other ∈ xs.map name ∨ other = key := by
  have hall : (∃ x ∈ upsert name key change fresh xs, name x = other ∧ True) ↔
      (∃ x ∈ xs, name x = other ∧ True) ∨ (key = other ∧ True) :=
    mem_upsert_iff hname hfresh (fun _ => (or_self_iff).symm) Iff.rfl
  simp only [and_true] at hall
  rw [List.mem_map, hall] at h
  exact h.imp List.mem_map.mpr Eq.symm

/-- Names stay apart. -/
theorem nodup_names_upsert (hname : ∀ x, name (change x) = name x) (hfresh : name fresh = key)
    (h : (xs.map name).Nodup) : ((upsert name key change fresh xs).map name).Nodup := by
  induction xs with
  | nil => exact List.nodup_singleton _
  | cons first rest ih =>
    rw [List.map_cons, List.nodup_cons] at h
    rw [upsert]
    split_ifs with hfirst
    · rw [List.map_cons, hname, List.nodup_cons]
      exact h
    · rw [List.map_cons, List.nodup_cons]
      refine ⟨fun hmem => ?_, ih h.2⟩
      rcases mem_names_upsert hname hfresh hmem with hold | hkey
      · exact h.1 hold
      · exact hfirst hkey

theorem forall_mem_upsert {holds : α → Prop} (h : ∀ x ∈ xs, holds x)
    (hchange : ∀ x, holds x → holds (change x)) (hfresh : holds fresh) :
    ∀ x ∈ upsert name key change fresh xs, holds x := by
  induction xs with
  | nil => simpa [upsert] using hfresh
  | cons first rest ih =>
    rw [List.forall_mem_cons] at h
    rw [upsert]
    split_ifs
    · exact List.forall_mem_cons.mpr ⟨hchange first h.1, h.2⟩
    · exact List.forall_mem_cons.mpr ⟨h.1, ih h.2⟩

end

theorem addToTables_eq_upsert (name : String) (column : Column) (entries : List Table) :
    addToTables name column entries =
      upsert Table.name name (fun entry => { entry with columns := entry.columns ++ [column] })
        ⟨name, [column]⟩ entries := by
  induction entries with
  | nil => rfl
  | cons first rest ih => rw [addToTables, upsert, ih]

theorem addToSchemas_eq_upsert (ref : TableRef) (column : Column) (schemas : List Schema) :
    addToSchemas ref column schemas =
      upsert Schema.name ref.schema
        (fun schema => { schema with tables := addToTables ref.table column schema.tables })
        ⟨ref.schema, addToTables ref.table column []⟩ schemas := by
  induction schemas with
  | nil => rfl
  | cons first rest ih => rw [addToSchemas, upsert, ih]

theorem mem_addToTables_iff {name other : String} {entries : List Table} :
    (∃ entry ∈ addToTables name column entries, entry.name = other ∧ listed ∈ entry.columns) ↔
      (∃ entry ∈ entries, entry.name = other ∧ listed ∈ entry.columns) ∨
        (name = other ∧ listed = column) := by
  rw [addToTables_eq_upsert]
  exact mem_upsert_iff (fun _ => rfl) rfl (fun _ => by simp) (by simp)

/-- One more column is listed, and the others stay. -/
theorem lists_addColumn_iff :
    (catalog.addColumn ref column).Lists table listed ↔
      catalog.Lists table listed ∨ (ref = table ∧ listed = column) := by
  have heq : ref = table ↔ ref.schema = table.schema ∧ ref.table = table.table := by
    cases ref
    cases table
    simp
  rw [Lists, addColumn, addToSchemas_eq_upsert, heq, and_assoc]
  exact mem_upsert_iff (fun _ => rfl) rfl (fun _ => mem_addToTables_iff)
    (mem_addToTables_iff.trans (by simp))

/-- **An assembled catalog lists the reported columns with their keys.** -/
theorem lists_assemble_iff :
    (assemble columns keys).Lists ref column ↔
      ∃ reported ∈ columns, reported.table = ref ∧ column = reported.withKeys keys := by
  have hall : ∀ start : Catalog,
      (columns.foldl (fun catalog reported => catalog.addColumn reported.table
        (reported.withKeys keys)) start).Lists ref column ↔
      start.Lists ref column ∨
        ∃ reported ∈ columns, reported.table = ref ∧ column = reported.withKeys keys := by
    induction columns with
    | nil => simp
    | cons first rest ih =>
      intro start
      rw [List.foldl_cons, ih, lists_addColumn_iff]
      simp only [List.mem_cons, exists_eq_or_imp, or_assoc]
  rw [assemble, hall]
  simp [Lists, empty]

/-! ### Tables have columns -/

/-- Every table of the catalog has columns. -/
def Filled (catalog : Catalog) : Prop :=
  ∀ schema ∈ catalog.schemas, ∀ entry ∈ schema.tables, entry.columns ≠ []

theorem Filled.addColumn (h : catalog.Filled) (ref : TableRef) (column : Column) :
    (catalog.addColumn ref column).Filled := by
  have htables : ∀ entries : List Table, (∀ entry ∈ entries, entry.columns ≠ []) →
      ∀ entry ∈ addToTables ref.table column entries, entry.columns ≠ [] := by
    intro entries hentries
    rw [addToTables_eq_upsert]
    exact forall_mem_upsert hentries (fun _ _ => by simp) (by simp)
  rw [Filled, Catalog.addColumn, addToSchemas_eq_upsert]
  exact forall_mem_upsert h (fun schema hschema => htables schema.tables hschema)
    (htables [] fun _ hentry => absurd hentry List.not_mem_nil)

/-- **A table gets into an assembled catalog with a column.** -/
theorem filled_assemble (columns : List ListedColumn) (keys : List Relationship) :
    (assemble columns keys).Filled :=
  List.foldlRecOn (motive := Filled) _ _ (fun _ h => absurd h List.not_mem_nil)
    fun _ h _ _ => h.addColumn _ _

/-! ### Names -/

/-- No two schemas have the same name, and no two tables of a schema. -/
structure Unambiguous (catalog : Catalog) : Prop where
  schemas : (catalog.schemas.map (·.name)).Nodup
  tables : ∀ schema ∈ catalog.schemas, (schema.tables.map (·.name)).Nodup

theorem Unambiguous.addColumn (h : catalog.Unambiguous) (ref : TableRef) (column : Column) :
    (catalog.addColumn ref column).Unambiguous where
  schemas := by
    rw [Catalog.addColumn, addToSchemas_eq_upsert]
    exact nodup_names_upsert (fun _ => rfl) rfl h.schemas
  tables := by
    rw [Catalog.addColumn, addToSchemas_eq_upsert]
    refine forall_mem_upsert h.tables (fun schema hschema => ?_) ?_ <;>
      rw [addToTables_eq_upsert]
    · exact nodup_names_upsert (fun _ => rfl) rfl hschema
    · exact nodup_names_upsert (fun _ => rfl) rfl List.nodup_nil

/-- **No name comes up twice in an assembled catalog.** -/
theorem unambiguous_assemble (columns : List ListedColumn) (keys : List Relationship) :
    (assemble columns keys).Unambiguous :=
  List.foldlRecOn (motive := Unambiguous) _ _
    ⟨List.nodup_nil, fun _ h => absurd h List.not_mem_nil⟩ fun _ h _ _ => h.addColumn _ _

/-- The table that is listed is the one that is found. -/
theorem Unambiguous.findTable_eq_ok (h : catalog.Unambiguous) {entry : Table}
    (hentry : (ref, entry) ∈ catalog.tables) : catalog.findTable ref = .ok entry := by
  obtain ⟨schema, hschema, hname, hmem, hname'⟩ := mem_tables_iff.mp hentry
  rw [findTable, ← hname, find?_eq_some_of_nodup h.schemas hschema]
  dsimp only
  rw [← hname', find?_eq_some_of_nodup (h.tables schema hschema) hmem]

/-! ### Look-ups -/

/-- The catalog lists a table. -/
def HasTable (catalog : Catalog) (ref : TableRef) : Prop :=
  ∃ table, (ref, table) ∈ catalog.tables

/-- The catalog lists a column of a name under a table. -/
def HasColumn (catalog : Catalog) (ref : TableRef) (name : String) : Prop :=
  ∃ column, catalog.Lists ref column ∧ column.name = name

/-- Some column that is listed under a table takes part in a foreign key. -/
def HasKeys (catalog : Catalog) (ref : TableRef) : Prop :=
  ∃ column, catalog.Lists ref column ∧ column.hasRelationships = true

theorem HasColumn.hasTable {name : String} (h : catalog.HasColumn ref name) :
    catalog.HasTable ref := by
  obtain ⟨column, hlisted, -⟩ := h
  obtain ⟨entry, hentry, -⟩ := lists_iff.mp hlisted
  exact ⟨entry, hentry⟩

theorem Filled.exists_hasColumn (h : catalog.Filled) (htable : catalog.HasTable ref) :
    ∃ name, catalog.HasColumn ref name := by
  obtain ⟨entry, hentry⟩ := htable
  obtain ⟨schema, hschema, -, hmem, -⟩ := mem_tables_iff.mp hentry
  obtain ⟨column, hcolumn⟩ := List.exists_mem_of_ne_nil _ (h schema hschema entry hmem)
  exact ⟨column.name, column, lists_iff.mpr ⟨entry, hentry, hcolumn⟩, rfl⟩

/-- The columns that exist in an assembled catalog are those that were reported. -/
theorem hasColumn_assemble_iff {name : String} :
    (assemble columns keys).HasColumn ref name ↔
      ∃ reported ∈ columns, reported.table = ref ∧ reported.name = name := by
  simp only [HasColumn, lists_assemble_iff]
  constructor
  · rintro ⟨_, ⟨reported, hreported, htable, rfl⟩, hname⟩
    exact ⟨reported, hreported, htable, hname⟩
  · rintro ⟨reported, hreported, htable, hname⟩
    exact ⟨_, ⟨reported, hreported, htable, rfl⟩, hname⟩

theorem Unambiguous.exists_findTable_iff (h : catalog.Unambiguous) :
    (∃ entry, catalog.findTable ref = .ok entry) ↔ catalog.HasTable ref := by
  constructor
  · rintro ⟨entry, hentry⟩
    exact ⟨entry, mem_tables_of_findTable hentry⟩
  · rintro ⟨entry, hentry⟩
    exact ⟨entry, h.findTable_eq_ok hentry⟩

theorem Unambiguous.lists_iff_mem (h : catalog.Unambiguous) {entry : Table}
    (hentry : catalog.findTable ref = .ok entry) :
    catalog.Lists ref column ↔ column ∈ entry.columns := by
  rw [lists_iff]
  constructor
  · rintro ⟨other, hother, hcolumn⟩
    rw [h.findTable_eq_ok hother] at hentry
    cases hentry
    exact hcolumn
  · exact fun hcolumn => ⟨entry, mem_tables_of_findTable hentry, hcolumn⟩

theorem Unambiguous.hasColumn_iff (h : catalog.Unambiguous) {entry : Table} {name : String}
    (hentry : catalog.findTable ref = .ok entry) :
    catalog.HasColumn ref name ↔ entry.hasColumn name = true := by
  simp only [HasColumn, h.lists_iff_mem hentry, Table.hasColumn_iff, Table.columnNames,
    List.mem_map]

theorem Unambiguous.exists_findLinkedTable_iff (h : catalog.Unambiguous) :
    (∃ entry, catalog.findLinkedTable ref = .ok entry) ↔ catalog.HasKeys ref := by
  have hlinked : ∀ entry, catalog.findTable ref = .ok entry →
      (entry.hasRelationships = true ↔ catalog.HasKeys ref) := by
    intro entry hentry
    simp only [HasKeys, h.lists_iff_mem hentry, Table.hasRelationships, List.any_eq_true]
  rw [findLinkedTable, exists_bind_eq_ok_iff]
  constructor
  · rintro ⟨entry, hentry, _, hresult⟩
    split_ifs at hresult with hkeys
    exact (hlinked entry hentry).mp hkeys
  · rintro ⟨column, hlisted, hkeys⟩
    obtain ⟨entry, hmem, -⟩ := lists_iff.mp hlisted
    have hentry := h.findTable_eq_ok hmem
    exact ⟨entry, hentry, entry, if_pos ((hlinked entry hentry).mpr ⟨column, hlisted, hkeys⟩)⟩

/-! ### Leaving tables out -/

theorem mem_schema_without_iff {schema : Schema} {entry : Table} :
    entry ∈ (schema.without ignored).tables ↔
      ∃ whole ∈ schema.tables, ⟨schema.name, whole.name⟩ ∉ ignored ∧
        entry = whole.without ignored := by
  rw [Schema.without, List.mem_map]
  simp [and_assoc, @eq_comm _ entry]

theorem mem_tables_without_iff {entry : Table} :
    (ref, entry) ∈ (catalog.without ignored).tables ↔
      ref ∉ ignored ∧ ∃ whole, (ref, whole) ∈ catalog.tables ∧ entry = whole.without ignored := by
  obtain ⟨schemaName, tableName⟩ := ref
  simp only [mem_tables_iff]
  constructor
  · rintro ⟨_, hpart, rfl, hentry, rfl⟩
    obtain ⟨schema, hschema, rfl⟩ := List.mem_map.mp hpart
    obtain ⟨whole, hwhole, hout, rfl⟩ := mem_schema_without_iff.mp hentry
    exact ⟨hout, whole, ⟨schema, hschema, rfl, hwhole, rfl⟩, rfl⟩
  · rintro ⟨hout, whole, ⟨schema, hschema, rfl, hwhole, rfl⟩, rfl⟩
    exact ⟨_, List.mem_map_of_mem hschema, rfl,
      mem_schema_without_iff.mpr ⟨whole, hwhole, hout, rfl⟩, rfl⟩

/-- **Columns of the tables left out are not listed**, and others lose their keys to these. -/
theorem lists_without_iff :
    (catalog.without ignored).Lists ref column ↔
      ref ∉ ignored ∧ ∃ whole, catalog.Lists ref whole ∧ column = whole.without ignored := by
  simp only [lists_iff, mem_tables_without_iff]
  constructor
  · rintro ⟨_, ⟨hout, entry, hentry, rfl⟩, hcolumn⟩
    obtain ⟨whole, hwhole, rfl⟩ := List.mem_map.mp hcolumn
    exact ⟨hout, whole, ⟨entry, hentry, hwhole⟩, rfl⟩
  · rintro ⟨hout, whole, ⟨entry, hentry, hwhole⟩, rfl⟩
    exact ⟨_, ⟨hout, entry, hentry, rfl⟩, List.mem_map.mpr ⟨whole, hwhole, rfl⟩⟩

theorem Unambiguous.without (h : catalog.Unambiguous) (ignored : List TableRef) :
    (catalog.without ignored).Unambiguous where
  schemas := by
    rw [Catalog.without, List.map_map]
    exact h.schemas
  tables := by
    intro schema hschema
    obtain ⟨whole, hwhole, rfl⟩ := List.mem_map.mp hschema
    rw [Schema.without, List.map_map]
    exact (h.tables whole hwhole).sublist (List.filter_sublist.map _)

end Catalog

end JoinPlan
