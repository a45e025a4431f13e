import JoinPlan.Proofs.DeclaredKeys
import JoinPlan.Proofs.Scoping

/-!
# Joins follow one pair of columns of a key

A foreign key of several columns is reported column by column, and every column records for itself
what it refers to. A join looks for one such record, so it equates one pair of columns: a column of
some declared key between the two tables, and the one that it refers to. That is the whole key if
the key has one column. Of a wider key it is a part, so rows are joined that the key does not
relate.

## Main definitions

* `Sqlite.KeyDef.pairs`: the columns of a key, each with the one it refers to.
* `Sqlite.WrittenOut`: keys name what they refer to, and all names are written as declared.
* `Sqlite.Declares`: a declared key leads from one table to another.
* `Sqlite.KeyDef.FollowedWhole`, `Sqlite.KeyDef.FollowedInPart`: what an equation takes of a key.
* `Prepared.FollowsKeys`: every join clause follows some declared key between its two tables.

## Main results

* `Sqlite.Declarable.exists_declares_of_keyTo?`: the record of a column comes from a declared key.
* `Sqlite.followsKeys_prepare`: every join follows a key in part.
* `Sqlite.not_followsKeys_depot`: and not always as a whole.
-/

namespace JoinPlan

/-- The equation is between two columns, in either order. -/
def Equation.Equates (on : Equation) (a b : QualifiedColumn) : Prop :=
  on = ⟨a, b⟩ ∨ on = ⟨b, a⟩

/-- A join of the tree and one right below it are of adjacent tables, so both are in the catalog. -/
theorem JoinTree.Built.hasTable_of_mem_joinsBelow {P : Type} [Penalty P] {catalog : Catalog}
    {penalty : TableRef → TableRef → P} {ignored : List TableRef} {base : Join} {tree : JoinTree}
    {placed : List AuthoredJoin} {authored bridges : List JoinNode}
    (h : Built (JoinGraph.ofCatalog penalty catalog ignored) base placed authored bridges tree)
    {above below : JoinNode} (habove : above ∈ tree.nodes)
    (hbelow : below ∈ tree.joinsBelow above) :
    catalog.HasTable above.table ∧ catalog.HasTable below.table := by
  obtain ⟨id, hid⟩ := List.getElem?_of_mem habove
  obtain ⟨child, hchild, hsome⟩ := List.mem_filterMap.mp hbelow
  obtain ⟨hin, hin', -⟩ :=
    JoinGraph.adjacent_ofCatalog_iff.mp (h.beyond_of_mem_children hid hchild hsome).2
  exact ⟨(JoinGraph.mem_tables_ofCatalog.mp hin).1, (JoinGraph.mem_tables_ofCatalog.mp hin').1⟩

namespace Sqlite

/-- The columns of a key, each with the one that it refers to. -/
def KeyDef.pairs (key : KeyDef) : List (String × String) :=
  key.columns.zip (key.targets.getD [])

/-- A key of a table names the columns that it refers to, and writes every name as it was
declared. -/
structure KeyDef.WrittenOut (schema : SchemaDef) (table : TableDef) (key : KeyDef) : Prop where
  targets : key.targets.isSome = true
  columns : ∀ name ∈ key.columns, table.declaredName name = name
  table : ∀ target, schema.table? key.table = some target → target.name = key.table
  targetColumns : ∀ target, schema.table? key.table = some target →
    ∀ name ∈ key.targets.getD [], target.declaredName name = name

/-- All keys of a database are written out. -/
def WrittenOut (schemas : List SchemaDef) : Prop :=
  ∀ schema ∈ schemas, ∀ table ∈ schema.tables, ∀ key ∈ table.keys, key.WrittenOut schema table

/-- A key that was declared leads from one listed table to another, which is the one that SQLite
finds by the name that the key writes. -/
def Declares (schemas : List SchemaDef) (key : KeyDef) (a b : TableRef) : Prop :=
  ∃ schema ∈ schemas, ∃ table ∈ schema.listedTables, ∃ target ∈ schema.listedTables,
    key ∈ table.keys ∧ schema.table? key.table = some target ∧
      schema.ref table = a ∧ schema.ref target = b

/-- The equation is the join of two tables under a key: it equates every column of the key with the
one that it refers to. -/
def KeyDef.FollowedWhole (key : KeyDef) (referring referred : String) (on : Equation) : Prop :=
  ∀ pair ∈ key.pairs, on.Equates ⟨referring, pair.1⟩ ⟨referred, pair.2⟩

/-- The equation equates one column of the key with the one that it refers to, which is the whole
key if the key has one column. -/
structure KeyDef.FollowedInPart (key : KeyDef) (referring referred : String) (on : Equation) :
    Prop where
  pair : ∃ pair ∈ key.pairs, on.Equates ⟨referring, pair.1⟩ ⟨referred, pair.2⟩
  whole : key.columns.length = 1 → key.FollowedWhole referring referred on

end Sqlite

/-- Every clause of a statement joins a join of the tree to the one above it, and its equation
follows some declared key between their tables, in whatever way is meant. -/
def Prepared.FollowsKeys (schemas : List Sqlite.SchemaDef)
    (follows : Sqlite.KeyDef → String → String → Equation → Prop) (prepared : Prepared) : Prop :=
  ∀ clause ∈ prepared.statement.joins,
    ∃ above ∈ prepared.tree.nodes, ∃ below ∈ prepared.tree.joinsBelow above,
      clause.table = below.table ∧ clause.joinAlias = some below.joinAlias ∧
      ∃ key,
        Sqlite.Declares schemas key above.table below.table ∧
            follows key above.joinAlias below.joinAlias clause.on ∨
          Sqlite.Declares schemas key below.table above.table ∧
            follows key below.joinAlias above.joinAlias clause.on

namespace Sqlite

variable {schemas : List SchemaDef} {schema : SchemaDef} {table target : TableDef} {key : KeyDef}
  {a b : TableRef}

theorem KeyDef.followedInPart_of_mem {referring referred : String} {on : Equation}
    {pair : String × String} (hpair : pair ∈ key.pairs)
    (hon : on.Equates ⟨referring, pair.1⟩ ⟨referred, pair.2⟩) :
    key.FollowedInPart referring referred on where
  pair := ⟨pair, hpair, hon⟩
  whole := by
    intro hsingle other hother
    have hlength : key.pairs.length ≤ 1 := by
      rw [pairs, List.length_zip, hsingle]
      exact Nat.min_le_left _ _
    obtain ⟨only, honly⟩ := List.length_eq_one_iff.mp
      (Nat.le_antisymm hlength (List.length_pos_of_mem hpair))
    rw [honly, List.mem_singleton] at hpair hother
    rwa [hother, ← hpair]

/-- SQLite finds a table by its own name. -/
theorem Declarable.table?_name (h : Declarable schemas) (hschema : schema ∈ schemas)
    (htarget : target ∈ schema.tables) : schema.table? target.name = some target := by
  have hnodup : (schema.tables.map fun table => asciiUpper table.name).Nodup := by
    refine List.pairwise_map.mpr ((h.tableNames schema hschema).imp ?_)
    simp [sameName]
  exact find?_eq_some_of_nodup hnodup htarget

/-- The tables of the catalog are those that are listed. -/
theorem exists_listed_of_hasTable (h : (catalog schemas).HasTable a) :
    ∃ schema ∈ schemas, ∃ table ∈ schema.listedTables, schema.ref table = a := by
  obtain ⟨name, hcolumn⟩ := (Catalog.filled_assemble _ _).exists_hasColumn h
  obtain ⟨schema, hschema, table, htable, href, -⟩ :=
    exists_listedColumn_iff.mp (Catalog.hasColumn_assemble_iff.mp hcolumn)
  exact ⟨schema, hschema, table, htable, href⟩

/-- **What a column records about a key comes from a declared key** between the two tables, one of
whose pairs it is. -/
theorem Declarable.exists_declares_of_keyTo? (h : Declarable schemas)
    (hwritten : WrittenOut schemas) {entry : Table}
    (hentry : (catalog schemas).findTable a = .ok entry) {column : Column} {recorded : OutboundKey}
    (hkey : entry.keyTo? b = some (column, recorded)) (hb : (catalog schemas).HasTable b) :
    ∃ key, Declares schemas key a b ∧ (column.name, recorded.foreignColumn) ∈ key.pairs := by
  obtain ⟨hlisted, hrecorded, rfl⟩ := Catalog.lists_of_keyTo? hentry hkey
  obtain ⟨listed, -, rfl, rfl⟩ := Catalog.lists_assemble_iff.mp hlisted
  obtain ⟨reported, hreported, rfl⟩ := List.mem_map.mp hrecorded
  obtain ⟨hreported, hends⟩ := List.mem_filter.mp hreported
  rw [Bool.and_eq_true, decide_eq_true_eq, decide_eq_true_eq] at hends
  obtain ⟨schema, hschema, table, htable, key, hdeclared, ends, hpair, rfl⟩ :=
    mem_relationships_iff.mp hreported
  -- the table that the key writes is one of the same schema, for names of schemas differ
  obtain ⟨schema', hschema', target, htarget, href⟩ := exists_listed_of_hasTable hb
  obtain ⟨hname, hname'⟩ := (TableRef.mk.injEq ..).mp href
  obtain rfl := eq_of_name_eq h.schemaNames hschema' hschema hname
  have hin := (mem_listedTables_iff.mp htable).1
  have hfound := h.table?_name hschema (mem_listedTables_iff.mp htarget).1
  rw [hname'] at hfound
  refine ⟨key, ⟨schema', hschema, table, htable, target, htarget, hdeclared, hfound, hends.1, href⟩,
    ?_⟩
  obtain ⟨htargets, hcolumns, -, -⟩ := hwritten schema' hschema table hin key hdeclared
  obtain ⟨targets, htargets⟩ := Option.isSome_iff_exists.mp htargets
  have hcolumn : listed.name = ends.1 :=
    hends.2.symm.trans (hcolumns _ (List.of_mem_zip hpair).1)
  have hsame : (listed.name, ends.2) = ends := Prod.ext hcolumn rfl
  rw [SchemaDef.targetsOf, htargets] at hpair
  rw [KeyDef.pairs, htargets]
  exact hsame.symm ▸ hpair

/-- **Every join follows one pair of columns of a declared key** between the two tables that it
joins, if keys name what they refer to and names are written as they were declared. A key of one
column is followed as a whole. -/
theorem followsKeys_prepare (schemas : List SchemaDef) (hdeclarable : Declarable schemas)
    (hwritten : WrittenOut schemas) (query : Query) (prepared : Prepared)
    (h : query.prepare (catalog schemas) = .ok prepared) :
    prepared.FollowsKeys schemas KeyDef.FollowedInPart := by
  obtain ⟨tree, statement, htree, hstatement, rfl⟩ := Query.prepare_eq_ok_iff.mp h
  obtain ⟨placed, authored, bridges, hbuilt⟩ := JoinTree.built_of_normalize htree
  intro clause hclause
  obtain ⟨above, habove, below, hbelow, hjoin⟩ := JoinTree.exists_joinClause hstatement hclause
  obtain ⟨on, hon, rfl⟩ := JoinNode.joinClause_eq_ok_iff.mp hjoin
  refine ⟨above, habove, below, hbelow, rfl, rfl, ?_⟩
  have htables := hbuilt.hasTable_of_mem_joinsBelow habove hbelow
  rcases Catalog.equate_cases hon with ⟨entry, column, recorded, hentry, hkey, rfl⟩ |
    ⟨entry, column, recorded, hentry, hkey, rfl⟩
  · obtain ⟨key, hdeclares, hpair⟩ :=
      hdeclarable.exists_declares_of_keyTo? hwritten hentry hkey htables.2
    exact ⟨key, .inl ⟨hdeclares, KeyDef.followedInPart_of_mem hpair (.inr rfl)⟩⟩
  · obtain ⟨key, hdeclares, hpair⟩ :=
      hdeclarable.exists_declares_of_keyTo? hwritten hentry hkey htables.1
    exact ⟨key, .inr ⟨hdeclares, KeyDef.followedInPart_of_mem hpair (.inl rfl)⟩⟩

/-! ### A depot -/

/-- The places of a depot, which are numbered within each hall. -/
def places : TableDef :=
  ⟨"places", [⟨"hall", "INTEGER", true⟩, ⟨"number", "INTEGER", true⟩], ["hall", "number"], []⟩

/-- A place is referred to by its hall and its number there. -/
def placeKey : KeyDef :=
  ⟨["hall", "place"], "places", some ["hall", "number"]⟩

/-- The crates of a depot, each at a place. -/
def crates : TableDef :=
  ⟨"crates", [⟨"hall", "INTEGER", false⟩, ⟨"place", "INTEGER", false⟩], [], [placeKey]⟩

/-- Crates and places. -/
def depot : SchemaDef :=
  ⟨"main", [places, crates]⟩

/-- Every crate with its place. -/
def cratesWithPlace : Query :=
  ⟨⟨⟨"main", "crates"⟩, [], .columns ["place"], none, [],
    [⟨⟨"main", "places"⟩, [], .columns ["number"], none, [], []⟩]⟩, none⟩

/-- The halls of crate and place are equated, and nothing else is. -/
def hallsAgree : JoinClause :=
  ⟨⟨"main", "places"⟩, some "main__places__1",
    ⟨⟨"main__places__1", "hall"⟩, ⟨"main__crates__1", "hall"⟩⟩⟩

theorem declarable_depot : Declarable [depot] where
  schemaNames := List.pairwise_singleton _ _
  tableNames := by
    have hdiffer : sameName "places" "crates" = false := by decide +kernel
    rw [List.forall_mem_singleton]
    exact List.pairwise_pair.mpr hdiffer
  columns := by simp [depot, places, crates]
  keyColumns := by simp [depot, places, crates, placeKey]
  targets := by simp [depot, places, crates, placeKey]

theorem writtenOut_depot : WrittenOut [depot] := by
  have hfound : depot.table? "places" = some places := by decide +kernel
  have hkey : placeKey.WrittenOut depot crates := by
    refine ⟨rfl, by decide +kernel, ?_, ?_⟩ <;> intro target htarget <;>
      obtain rfl := Option.some.inj (hfound.symm.trans htarget)
    · rfl
    · decide +kernel
  simpa [WrittenOut, depot, places, crates] using hkey

theorem exists_prepared_cratesWithPlace :
    ∃ prepared, cratesWithPlace.prepare (catalog [depot]) = .ok prepared ∧
      prepared.statement.joins = [hallsAgree] :=
  map_eq_ok_iff.mp (by decide +kernel)

theorem followsKeys_depot :
    Declarable [depot] ∧ WrittenOut [depot] ∧
      ∃ prepared, cratesWithPlace.prepare (catalog [depot]) = .ok prepared ∧
        prepared.FollowsKeys [depot] KeyDef.FollowedInPart := by
  obtain ⟨prepared, hprepared, -⟩ := exists_prepared_cratesWithPlace
  exact ⟨declarable_depot, writtenOut_depot, prepared, hprepared,
    followsKeys_prepare [depot] declarable_depot writtenOut_depot _ prepared hprepared⟩

/-- No equation follows the key of the crates as a whole. -/
theorem not_followedWhole_placeKey (referring referred : String) (on : Equation) :
    ¬ placeKey.FollowedWhole referring referred on := by
  intro h
  have hhall := h ("hall", "hall") (by decide)
  have hplace := h ("place", "number") (by decide)
  rcases hhall with rfl | rfl <;> simp [Equation.Equates] at hplace

/-- **A join need not follow a key as a whole**: crates are joined to every place of their hall. -/
theorem not_followsKeys_depot :
    Declarable [depot] ∧ WrittenOut [depot] ∧
      ∃ prepared, cratesWithPlace.prepare (catalog [depot]) = .ok prepared ∧
        prepared.statement.joins = [hallsAgree] ∧
        ¬ prepared.FollowsKeys [depot] KeyDef.FollowedWhole := by
  obtain ⟨prepared, hprepared, hjoins⟩ := exists_prepared_cratesWithPlace
  refine ⟨declarable_depot, writtenOut_depot, prepared, hprepared, hjoins, fun hfollows => ?_⟩
  obtain ⟨above, -, below, -, -, -, key, hkey⟩ :=
    hfollows hallsAgree (hjoins ▸ List.mem_singleton_self _)
  have honly : ∀ {a b : TableRef}, Declares [depot] key a b → key = placeKey := by
    rintro a b ⟨schema, hschema, table, htable, -, -, hdeclared, -⟩
    obtain rfl := List.mem_singleton.mp hschema
    have hin := (mem_listedTables_iff.mp htable).1
    simp only [depot, List.mem_cons, List.not_mem_nil, or_false] at hin
    rcases hin with rfl | rfl
    · cases hdeclared
    · exact List.mem_singleton.mp hdeclared
  rcases hkey with ⟨hdeclares, hwhole⟩ | ⟨hdeclares, hwhole⟩ <;>
    exact not_followedWhole_placeKey _ _ _ (honly hdeclares ▸ hwhole)

end Sqlite

end JoinPlan
