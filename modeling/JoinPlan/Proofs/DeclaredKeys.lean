import JoinPlan.Proofs.MirroredKeys
import JoinPlan.Proofs.StatementParts
import JoinPlan.Sqlite.Schema

/-!
# Which declared keys link tables

SQLite looks for the table that a foreign key refers to without regard to ASCII case, but reports
the name as the key writes it. A catalog tells tables apart by their names as they are. So two
tables are linked, and can be joined, exactly if a key of one of them writes the name of the other
as it was declared. Any other key between them is reported and then lost, and nothing fails before
the two are to be joined.

## Main definitions

* `Sqlite.Declarable`: what SQLite sees to when tables are declared.
* `Sqlite.SchemaDef.Names`: a key of one table writes the name of another as it was declared.
* `Catalog.Usable`, `Catalog.Lost`: two tables are linked and can be joined, or neither.

## Main results

* `Sqlite.refersTo_catalog_iff`: which tables a listed table refers to in the catalog.
* `Sqlite.usable_iff_names`: which keys link the tables they are declared for.
-/

namespace JoinPlan

namespace Catalog

/-- The tables are linked, and there are columns of the two to equate. -/
def Usable (catalog : Catalog) (a b : TableRef) : Prop :=
  (JoinGraph.ofNames catalog []).Adjacent a b ∧ catalog.Joinable a b

/-- The tables are not linked, and to join them is an error. -/
def Lost (catalog : Catalog) (a b : TableRef) : Prop :=
  ¬ (JoinGraph.ofNames catalog []).Adjacent a b ∧
    ∀ aName bName, catalog.equate a aName b bName = .error (.noDirectForeignKey a b)

variable {catalog : Catalog} {a b : TableRef}

/-- Where keys are recorded at both ends, two tables are of use to each other exactly if one refers
to the other. -/
theorem Unambiguous.usable_of_refersTo (hu : catalog.Unambiguous) (hm : catalog.Mirrored)
    (ha : catalog.HasTable a) (hb : catalog.HasTable b)
    (h : catalog.RefersTo a b ∨ catalog.RefersTo b a) : catalog.Usable a b := by
  have hadjacent : (JoinGraph.ofNames catalog []).Adjacent a b := by
    refine JoinGraph.adjacent_ofCatalog_iff.mpr
      ⟨JoinGraph.mem_tables_ofCatalog.mpr ⟨ha, List.not_mem_nil⟩,
        JoinGraph.mem_tables_ofCatalog.mpr ⟨hb, List.not_mem_nil⟩, ?_⟩
    rw [mem_keyEnds_iff_refers, mem_keyEnds_iff_refers]
    exact h.imp .inl .inl
  exact ⟨hadjacent, joinable_of_adjacent hu hm hadjacent⟩

theorem Unambiguous.lost_of_not_refersTo (hu : catalog.Unambiguous) (hm : catalog.Mirrored)
    (ha : catalog.HasTable a) (hb : catalog.HasTable b)
    (h : ¬ (catalog.RefersTo a b ∨ catalog.RefersTo b a)) : catalog.Lost a b := by
  have hnone : ∀ {a b : TableRef} {table : Table}, catalog.findTable a = .ok table →
      ¬ catalog.RefersTo a b → table.keyTo? b = none := by
    intro a b table htable hnot
    rw [← Option.not_isSome_iff_eq_none, Table.keyTo?_isSome]
    rintro ⟨column, hcolumn, key, hkey, hleads⟩
    exact hnot ⟨column, (hu.lists_iff_mem htable).mpr hcolumn, key, hkey, hleads⟩
  rw [not_or] at h
  obtain ⟨parent, hparent⟩ := hu.exists_findTable_iff.mpr ha
  obtain ⟨child, hchild⟩ := hu.exists_findTable_iff.mpr hb
  refine ⟨fun hadjacent => ?_, fun aName bName => ?_⟩
  · obtain ⟨on, hon⟩ := joinable_of_adjacent hu hm hadjacent "" ""
    rw [equate, hparent, ok_bind_eq, hnone hparent h.1] at hon
    dsimp only at hon
    rw [hchild, ok_bind_eq, hnone hchild h.2] at hon
    cases hon
  · rw [equate, hparent, ok_bind_eq, hnone hparent h.1]
    dsimp only
    rw [hchild, ok_bind_eq, hnone hchild h.2]
    rfl

end Catalog

namespace Sqlite

/-- What SQLite sees to when tables are declared: names differ by more than case, a table has
columns, and a foreign key has columns of its own table, each with one it refers to. -/
structure Declarable (schemas : List SchemaDef) : Prop where
  schemaNames : schemas.Pairwise fun a b => sameName a.name b.name = false
  tableNames : ∀ schema ∈ schemas,
    schema.tables.Pairwise fun a b => sameName a.name b.name = false
  columns : ∀ schema ∈ schemas, ∀ table ∈ schema.tables, table.columns ≠ []
  keyColumns : ∀ schema ∈ schemas, ∀ table ∈ schema.tables, ∀ key ∈ table.keys,
    key.columns ≠ [] ∧ ∀ name ∈ key.columns, ∃ column ∈ table.columns, sameName column.name name
  targets : ∀ schema ∈ schemas, ∀ table ∈ schema.tables, ∀ key ∈ table.keys,
    ∀ targets ∈ key.targets, targets.length = key.columns.length

/-- A key of a table writes the name of another one as it was declared, and there are columns that
it refers to. -/
def SchemaDef.Names (schema : SchemaDef) (table target : TableDef) : Prop :=
  ∃ key ∈ table.keys, key.table = target.name ∧ schema.targetsOf key ≠ []

/-- A table under the name of its schema and its own. -/
def SchemaDef.ref (schema : SchemaDef) (table : TableDef) : TableRef :=
  ⟨schema.name, table.name⟩

variable {schemas : List SchemaDef} {schema : SchemaDef} {table parent : TableDef} {key : KeyDef}

@[simp] theorem sameName_self (name : String) : sameName name name = true := by
  simp [sameName]

/-- Elements whose names differ by more than case are told apart by their names. -/
theorem eq_of_name_eq {α : Type} {name : α → String} {xs : List α}
    (h : xs.Pairwise fun a b => sameName (name a) (name b) = false) {a b : α} (ha : a ∈ xs)
    (hb : b ∈ xs) (heq : name a = name b) : a = b := by
  have hnodup : (xs.map name).Nodup := by
    refine List.pairwise_map.mpr (h.imp fun hdiffer hsame => ?_)
    rw [hsame, sameName_self] at hdiffer
    cases hdiffer
  exact List.inj_on_of_nodup_map hnodup ha hb heq

/-! ### Reports -/

theorem mem_listedTables_iff :
    table ∈ schema.listedTables ↔ table ∈ schema.tables ∧ isListed table.name = true := by
  rw [SchemaDef.listedTables, List.mem_filter]

theorem exists_listedColumn_iff {ref : TableRef} {name : String} :
    (∃ column ∈ listedColumns schemas, column.table = ref ∧ column.name = name) ↔
      ∃ schema ∈ schemas, ∃ table ∈ schema.listedTables, schema.ref table = ref ∧
        ∃ column ∈ table.columns, column.name = name := by
  simp only [listedColumns, listedColumnsOf, List.mem_flatMap, List.mem_map]
  constructor
  · rintro ⟨_, ⟨schema, hschema, table, htable, column, hcolumn, rfl⟩, href, hname⟩
    exact ⟨schema, hschema, table, htable, href, column, hcolumn, hname⟩
  · rintro ⟨schema, hschema, table, htable, href, column, hcolumn, hname⟩
    exact ⟨_, ⟨schema, hschema, table, htable, column, hcolumn, rfl⟩, href, hname⟩

/-- What is reported of a key comes from a key of a listed table, and from one of its columns. -/
theorem mem_relationships_iff {reported : Relationship} :
    reported ∈ relationships schemas ↔
      ∃ schema ∈ schemas, ∃ table ∈ schema.listedTables, ∃ key ∈ table.keys,
        ∃ ends ∈ key.columns.zip (schema.targetsOf key),
          reported = ⟨schema.ref table, table.declaredName ends.1, ⟨schema.name, key.table⟩,
            ends.2⟩ := by
  simp only [relationships, relationshipsOfKey, List.mem_flatMap, List.mem_map, List.mem_reverse,
    SchemaDef.ref, eq_comm (b := reported)]

/-- A name that is found is the name of a column. -/
theorem declaredName_mem {name : String}
    (h : ∃ column ∈ table.columns, sameName column.name name) :
    ∃ column ∈ table.columns, column.name = table.declaredName name := by
  have hsome : (table.columns.find? fun column => sameName column.name name).isSome :=
    List.find?_isSome.mpr h
  obtain ⟨found, hfound⟩ := Option.isSome_iff_exists.mp hsome
  refine ⟨found, List.mem_of_find?_eq_some hfound, ?_⟩
  rw [TableDef.declaredName, hfound]

/-! ### The catalog -/

namespace Declarable

variable (h : Declarable schemas)

include h

/-- The table of a reference is told by its names. -/
theorem eq_of_ref_eq {schema' : SchemaDef} {table' : TableDef} (hschema : schema ∈ schemas)
    (hschema' : schema' ∈ schemas) (htable : table ∈ schema.listedTables)
    (htable' : table' ∈ schema'.listedTables) (heq : schema.ref table = schema'.ref table') :
    schema = schema' ∧ table = table' := by
  obtain ⟨hname, hname'⟩ := (TableRef.mk.injEq ..).mp heq
  obtain rfl := eq_of_name_eq h.schemaNames hschema hschema' hname
  refine ⟨rfl, eq_of_name_eq (h.tableNames schema hschema) ?_ ?_ hname'⟩
  · exact (mem_listedTables_iff.mp htable).1
  · exact (mem_listedTables_iff.mp htable').1

/-- The column that refers is reported with every key. -/
theorem exists_listedColumn_of_mem {reported : Relationship}
    (hreported : reported ∈ relationships schemas) :
    ∃ column ∈ listedColumns schemas,
      column.table = reported.localTable ∧ column.name = reported.localColumn := by
  obtain ⟨schema, hschema, table, htable, key, hkey, ends, hends, rfl⟩ :=
    mem_relationships_iff.mp hreported
  have hin := (mem_listedTables_iff.mp htable).1
  have hcolumn := (h.keyColumns schema hschema table hin key hkey).2 ends.1
    (List.of_mem_zip hends).1
  exact exists_listedColumn_iff.mpr ⟨schema, hschema, table, htable, rfl, declaredName_mem hcolumn⟩

theorem mirrored_catalog : (catalog schemas).Mirrored :=
  Catalog.mirrored_assemble fun _ hreported => h.exists_listedColumn_of_mem hreported

/-- A table that is listed is in the catalog. -/
theorem hasTable (hschema : schema ∈ schemas) (htable : table ∈ schema.listedTables) :
    (catalog schemas).HasTable (schema.ref table) := by
  have hin := (mem_listedTables_iff.mp htable).1
  obtain ⟨column, hcolumn⟩ := List.exists_mem_of_ne_nil _ (h.columns schema hschema table hin)
  have hlisted : (catalog schemas).HasColumn (schema.ref table) column.name :=
    Catalog.hasColumn_assemble_iff.mpr (exists_listedColumn_iff.mpr
      ⟨schema, hschema, table, htable, rfl, column, hcolumn, rfl⟩)
  exact hlisted.hasTable

/-- **A listed table refers to those whose names its keys write**, letter by letter. -/
theorem refersTo_catalog_iff (hschema : schema ∈ schemas) (htable : table ∈ schema.listedTables)
    (target : TableDef) :
    (catalog schemas).RefersTo (schema.ref table) (schema.ref target) ↔
      schema.Names table target := by
  rw [catalog, Catalog.refersTo_assemble_iff]
  constructor
  · rintro ⟨_, -, reported, hreported, -, hlocal, -, hforeign⟩
    obtain ⟨schema', hschema', table', htable', key, hkey, ends, hends, rfl⟩ :=
      mem_relationships_iff.mp hreported
    obtain ⟨rfl, rfl⟩ := h.eq_of_ref_eq hschema hschema' htable htable' hlocal.symm
    obtain ⟨-, hname⟩ := (TableRef.mk.injEq ..).mp hforeign
    exact ⟨key, hkey, hname, List.ne_nil_of_mem (List.of_mem_zip hends).2⟩
  · rintro ⟨key, hkey, hname, htargets⟩
    have hin := (mem_listedTables_iff.mp htable).1
    have hcolumns := (h.keyColumns schema hschema table hin key hkey).1
    -- the first column of the key is reported with what it refers to
    obtain ⟨first, columns, hfirst⟩ := List.exists_cons_of_ne_nil hcolumns
    obtain ⟨foreign, targets, hforeign⟩ := List.exists_cons_of_ne_nil htargets
    have hends : (first, foreign) ∈ key.columns.zip (schema.targetsOf key) := by
      simp [hfirst, hforeign]
    have hreported := mem_relationships_iff.mpr
      ⟨schema, hschema, table, htable, key, hkey, (first, foreign), hends, rfl⟩
    obtain ⟨column, hcolumn, hlocal, hcolumnName⟩ := h.exists_listedColumn_of_mem hreported
    exact ⟨column, hcolumn, _, hreported, hlocal, rfl, hcolumnName.symm,
      congrArg (TableRef.mk schema.name) hname⟩

/-- Two tables are of use to each other if one of them names the other. -/
theorem usable_of_names (hschema : schema ∈ schemas) (htable : table ∈ schema.listedTables)
    (hparent : parent ∈ schema.listedTables)
    (hnames : schema.Names table parent ∨ schema.Names parent table) :
    (catalog schemas).Usable (schema.ref table) (schema.ref parent) := by
  rw [← h.refersTo_catalog_iff hschema htable, ← h.refersTo_catalog_iff hschema hparent] at hnames
  exact (Catalog.unambiguous_assemble _ _).usable_of_refersTo h.mirrored_catalog
    (h.hasTable hschema htable) (h.hasTable hschema hparent) hnames

/-- They are lost to each other if neither does. -/
theorem lost_of_not_names (hschema : schema ∈ schemas) (htable : table ∈ schema.listedTables)
    (hparent : parent ∈ schema.listedTables)
    (hnames : ¬ (schema.Names table parent ∨ schema.Names parent table)) :
    (catalog schemas).Lost (schema.ref table) (schema.ref parent) := by
  rw [← h.refersTo_catalog_iff hschema htable, ← h.refersTo_catalog_iff hschema hparent] at hnames
  exact (Catalog.unambiguous_assemble _ _).lost_of_not_refersTo h.mirrored_catalog
    (h.hasTable hschema htable) (h.hasTable hschema hparent) hnames

/-- A key with explicit targets has some. -/
theorem targetsOf_ne_nil (hschema : schema ∈ schemas) (htable : table ∈ schema.tables)
    (hkey : key ∈ table.keys) {targets : List String} (htargets : key.targets = some targets) :
    schema.targetsOf key ≠ [] := by
  have hlength := h.targets schema hschema table htable key hkey targets htargets
  have hcolumns := (h.keyColumns schema hschema table htable key hkey).1
  rw [SchemaDef.targetsOf, htargets]
  rintro rfl
  exact hcolumns (List.length_eq_zero_iff.mp hlength.symm)

end Declarable

/-- **A declared key links two tables if it writes the name of its target as declared**, and so does
any other key from one of them to the other. Without such a key the two are lost to each other,
though SQLite finds the table by a name in any case. -/
theorem usable_iff_names (schemas : List SchemaDef) (h : Declarable schemas) (schema : SchemaDef)
    (hschema : schema ∈ schemas) (table : TableDef) (htable : table ∈ schema.listedTables)
    (key : KeyDef) (hkey : key ∈ table.keys) (targets : List String)
    (htargets : key.targets = some targets) (parent : TableDef)
    (hparent : schema.table? key.table = some parent) (hlisted : isListed parent.name = true) :
    (schema.Names table parent ∨ schema.Names parent table →
      (catalog schemas).Usable (schema.ref table) (schema.ref parent) ∧
        (catalog schemas).Usable (schema.ref parent) (schema.ref table)) ∧
    (¬ (schema.Names table parent ∨ schema.Names parent table) →
      (catalog schemas).Lost (schema.ref table) (schema.ref parent) ∧
        (catalog schemas).Lost (schema.ref parent) (schema.ref table)) ∧
    (key.table = parent.name → schema.Names table parent) := by
  have hin := (mem_listedTables_iff.mp htable).1
  have hfound : parent ∈ schema.listedTables :=
    mem_listedTables_iff.mpr ⟨List.mem_of_find?_eq_some hparent, hlisted⟩
  refine ⟨fun hnames => ⟨?_, ?_⟩, fun hnone => ⟨?_, ?_⟩, fun hname => ?_⟩
  · exact h.usable_of_names hschema htable hfound hnames
  · exact h.usable_of_names hschema hfound htable hnames.symm
  · exact h.lost_of_not_names hschema htable hfound hnone
  · exact h.lost_of_not_names hschema hfound htable fun hnames => hnone hnames.symm
  · exact ⟨key, hkey, hname, h.targetsOf_ne_nil hschema hin hkey htargets⟩

/-! ### A shelf -/

/-- The authors of a shelf. -/
def authors : TableDef :=
  ⟨"Authors", [⟨"id", "INTEGER", true⟩], ["id"], []⟩

/-- The key of the books of a shelf to their authors, whose name is written as given. -/
def authorKey (name : String) : KeyDef :=
  ⟨["author"], name, some ["id"]⟩

/-- The books of a shelf. -/
def books (name : String) : TableDef :=
  ⟨"books", [⟨"author", "INTEGER", false⟩], [], [authorKey name]⟩

/-- Books and their authors. -/
def shelf (name : String) : SchemaDef :=
  ⟨"main", [authors, books name]⟩

theorem declarable_shelf (name : String) : Declarable [shelf name] where
  schemaNames := List.pairwise_singleton _ _
  tableNames := by
    have hdiffer : sameName "Authors" "books" = false := by decide +kernel
    rw [List.forall_mem_singleton]
    exact List.pairwise_pair.mpr hdiffer
  columns := by simp [shelf, books, authors]
  keyColumns := by simp [shelf, books, authors, authorKey]
  targets := by simp [shelf, books, authors, authorKey]

/-- Books that name their authors as declared are linked to them. -/
theorem usable_shelf :
    (shelf "Authors").table? (authorKey "Authors").table = some authors ∧
    (catalog [shelf "Authors"]).Usable ⟨"main", "books"⟩ ⟨"main", "Authors"⟩ := by
  have hfound : (shelf "Authors").table? "Authors" = some authors := by decide +kernel
  obtain ⟨husable, -, hnames⟩ :=
    usable_iff_names [shelf "Authors"] (declarable_shelf _) (shelf "Authors") (by simp)
      (books "Authors") (by decide +kernel) (authorKey "Authors") (by simp [books]) ["id"] rfl
      authors hfound (by decide +kernel)
  exact ⟨hfound, (husable (.inl (hnames rfl))).1⟩

/-- **A key is lost if it writes the name of its target in another case**: SQLite finds the authors
by the name that the books write, but the two tables are neither linked nor to be joined. -/
theorem lost_shelf :
    Declarable [shelf "authors"] ∧ books "authors" ∈ (shelf "authors").listedTables ∧
      authorKey "authors" ∈ (books "authors").keys ∧
      (authorKey "authors").targets = some ["id"] ∧
      (shelf "authors").table? (authorKey "authors").table = some authors ∧
      isListed authors.name = true ∧
      (catalog [shelf "authors"]).Lost ⟨"main", "books"⟩ ⟨"main", "Authors"⟩ ∧
      ¬ (catalog [shelf "authors"]).Usable ⟨"main", "books"⟩ ⟨"main", "Authors"⟩ := by
  have hdeclarable := declarable_shelf "authors"
  have hbooks : books "authors" ∈ (shelf "authors").listedTables := by decide +kernel
  have hauthors : authors ∈ (shelf "authors").listedTables := by decide +kernel
  have hlost : (catalog [shelf "authors"]).Lost ⟨"main", "books"⟩ ⟨"main", "Authors"⟩ := by
    refine hdeclarable.lost_of_not_names (List.mem_singleton_self _) hbooks hauthors ?_
    simp [SchemaDef.Names, books, authors, authorKey]
  exact ⟨hdeclarable, hbooks, by simp [books], rfl, by decide +kernel, by decide +kernel, hlost,
    fun husable => hlost.1 husable.1⟩

end Sqlite

end JoinPlan
