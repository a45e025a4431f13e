import JoinPlan.Proofs.DeclaredKeys
import JoinPlan.Proofs.LiteralSafety

/-!
# Statements for related rows

A statement for the rows related to a row joins the tables of a path of as few hops as there can be,
each to the one before it over a key between the two. No table comes up twice on such a path, so the
tables need no aliases, and what qualifies a column is the name of its table.

Names are not quoted, though, and two tables may be written alike where dots are part of names. And
the columns that are output are qualified by the bare name of a table, without its schema, which
another table on the path may have as well. Then its columns are output, too. That takes a key that
leads from one schema to another, of which SQLite knows none.

## Main definitions

* `Catalog.RecordsKey`, `Equation.Follows`: an equation follows a key between two tables.
* `Statement.Relates`: a statement relates a row of one table to those of another.
* `Statement.tablesCalled`: the tables of a statement that bear a name, whatever their schemas.
* `Catalog.KeepsSchemas`: no key leads from one schema to another.

## Main results

* `Catalog.relates_relatedRows`: statements for related rows are like that.
* `not_nodup_text_oldItems`: the names of their tables need not differ.
* `Catalog.tablesCalled_relatedRows`: whether only columns of the foreign table are output.
* `tablesCalled_archivedOrders`: it need not be so.
* `Sqlite.keepsSchemas_catalog`: in a SQLite database it is.
-/

namespace JoinPlan

variable {catalog : Catalog} {source target parent child : TableRef} {path : List TableRef}
  {statement : Statement}

/-! ### Paths -/

namespace Catalog

theorem tables_of_joinPath {clauses : List JoinClause}
    (h : catalog.joinPath source path = .ok clauses) : clauses.map (·.table) = path := by
  induction path generalizing source clauses with
  | nil =>
    cases h
    rfl
  | cons next rest ih =>
    obtain ⟨on, -, h⟩ := bind_eq_ok_iff.mp h
    obtain ⟨others, hothers, h⟩ := bind_eq_ok_iff.mp h
    cases h
    rw [List.map_cons, ih hothers]

/-- Each clause along a path joins its table to the one before it on the path. -/
theorem of_getElem?_joinPath {clauses : List JoinClause}
    (h : catalog.joinPath source path = .ok clauses) {i : Nat} {clause : JoinClause}
    (hclause : clauses[i]? = some clause) :
    ∃ before, (source :: path)[i]? = some before ∧ clause.joinAlias = none ∧
      catalog.equate before before.text clause.table clause.table.text = .ok clause.on := by
  induction path generalizing source clauses i with
  | nil =>
    cases h
    cases hclause
  | cons next rest ih =>
    obtain ⟨on, hon, h⟩ := bind_eq_ok_iff.mp h
    obtain ⟨others, hothers, h⟩ := bind_eq_ok_iff.mp h
    cases h
    cases i with
    | zero =>
      cases hclause
      exact ⟨source, rfl, rfl, hon⟩
    | succ i => exact ih hothers hclause

theorem unaliased_of_joinPath {clauses : List JoinClause}
    (h : catalog.joinPath source path = .ok clauses) {clause : JoinClause}
    (hmem : clause ∈ clauses) : clause.joinAlias = none := by
  obtain ⟨i, hi⟩ := List.getElem?_of_mem hmem
  obtain ⟨_, -, hnone, -⟩ := of_getElem?_joinPath h hi
  exact hnone

/-- The tables of the statement are those of the path. -/
theorem shortLeg_of_relatedRows {row : Row}
    (h : catalog.relatedRows source row target = .ok statement) :
    ∃ path, statement.tables = source :: path ∧
      (JoinGraph.ofNames catalog []).ShortLeg source target path := by
  obtain ⟨_, _, path, joins, -, -, hpath, hjoins, -, rfl⟩ := relatedRows_eq_ok_iff.mp h
  exact ⟨path, congrArg (source :: ·) (tables_of_joinPath hjoins), shortLeg_of_pathBeyond hpath⟩

end Catalog

/-! ### Keys -/

/-- A column of one table records a key that leads to a column of another, whether or not that one
is listed. -/
def Catalog.RecordsKey (catalog : Catalog) (a : TableRef) (x : String) (b : TableRef)
    (y : String) : Prop :=
  ∃ table, catalog.findTable a = .ok table ∧ ∃ column ∈ table.columns, column.name = x ∧
    ∃ key ∈ column.outbound, key.foreignTable = b ∧ key.foreignColumn = y

/-- The equation is between a column of the child, on the left, and one of the parent, as some key
between the two has it. Each column is qualified by the name of its table. -/
structure Equation.Follows (catalog : Catalog) (parent child : TableRef) (on : Equation) :
    Prop where
  left : on.left.qualifier = child.text
  right : on.right.qualifier = parent.text
  key : catalog.RecordsKey parent on.right.column child on.left.column ∨
    catalog.RecordsKey child on.left.column parent on.right.column

theorem Catalog.recordsKey_of_keyTo? {a b : TableRef} {table : Table}
    (htable : catalog.findTable a = .ok table) {column : Column} {key : OutboundKey}
    (hkey : table.keyTo? b = some (column, key)) :
    catalog.RecordsKey a column.name b key.foreignColumn := by
  obtain ⟨hcolumn, hout, htarget⟩ := Table.mem_of_keyTo? hkey
  exact ⟨table, htable, column, hcolumn, rfl, key, hout, htarget, rfl⟩

theorem Catalog.follows_of_equate {on : Equation}
    (h : catalog.equate parent parent.text child child.text = .ok on) :
    on.Follows catalog parent child := by
  rcases equate_cases h with ⟨table, column, key, htable, hkey, rfl⟩ |
    ⟨table, column, key, htable, hkey, rfl⟩
  · exact ⟨rfl, rfl, .inl (recordsKey_of_keyTo? htable hkey)⟩
  · exact ⟨rfl, rfl, .inr (recordsKey_of_keyTo? htable hkey)⟩

/-! ### Relating rows -/

/-- The statement relates a row of one table to the rows of another. -/
structure Statement.Relates (catalog : Catalog) (source : TableRef) (row : Row)
    (target : TableRef) (statement : Statement) : Prop where
  /-- No table comes up twice. -/
  nodup : statement.tables.Nodup
  head : statement.tables.head? = some source
  last : statement.tables.getLast? = some target
  /-- There are as few tables as there can be. -/
  hops : ∃ hops, (JoinGraph.ofNames catalog []).Distance source target hops ∧
    statement.tables.length = hops + 1
  alone : source = target → statement.tables = [source]
  /-- No table has an alias. -/
  unaliased : statement.joinAlias = none ∧ ∀ clause ∈ statement.joins, clause.joinAlias = none
  /-- Their names differ unless one of them mimics another. -/
  names : (statement.tables.map TableRef.text).Nodup ↔
    ∀ a ∈ statement.tables, ∀ b ∈ statement.tables, ¬ a.Mimics b
  /-- So they do if no schema has a dot in its name. -/
  dotless : (∀ table ∈ statement.tables, '.' ∉ table.schema.toList) →
    (statement.tables.map TableRef.text).Nodup
  /-- Every table is joined to the one before it over a key between the two. -/
  joins : ∀ (i : Nat) clause, statement.joins[i]? = some clause →
    ∃ before, statement.tables[i]? = some before ∧ clause.on.Follows catalog before clause.table
  /-- Every entry of the row is one test of a column that the first table has, in their order. -/
  tests : ∃ table, catalog.findTable source = .ok table ∧
    (∀ entry ∈ row, table.hasColumn entry.1 = true) ∧
    statement.filters = row.map fun entry => rowFilter ⟨source.text, entry.1⟩ entry.2

/-- Different references have different texts if and only if none mimics another. -/
theorem TableRef.nodup_map_text_iff {refs : List TableRef} (hdiffer : refs.Nodup) :
    (refs.map text).Nodup ↔ ∀ a ∈ refs, ∀ b ∈ refs, ¬ a.Mimics b := by
  rw [List.nodup_map_iff_inj_on hdiffer]
  constructor
  · intro hinj a ha b hb hmimics
    cases hinj a ha b hb hmimics.text_eq
    exact a.not_mimics_self hmimics
  · intro hnone a ha b hb hsame
    rcases text_eq_iff.mp hsame with heq | hmimics | hmimics
    · exact heq
    · exact absurd hmimics (hnone a ha b hb)
    · exact absurd hmimics (hnone b hb a ha)

/-- **Statements for related rows** lead from table to table by as few keys as there can be, past
none twice. The names of their tables differ unless one mimics another. -/
theorem Catalog.relates_relatedRows (catalog : Catalog) (source : TableRef) (row : Row)
    (target : TableRef) (statement : Statement)
    (h : catalog.relatedRows source row target = .ok statement) :
    statement.Relates catalog source row target := by
  obtain ⟨table, _, path, joins, hlinked, -, hpath, hjoins, hcolumns, rfl⟩ :=
    relatedRows_eq_ok_iff.mp h
  have hleg := shortLeg_of_pathBeyond hpath
  have htables : joins.map (·.table) = path := tables_of_joinPath hjoins
  have hnames := TableRef.nodup_map_text_iff (htables.symm ▸ hleg.nodup :
    (source :: joins.map (·.table)).Nodup)
  constructor
  all_goals dsimp only [Statement.tables]
  case nodup => exact htables.symm ▸ hleg.nodup
  case head => rfl
  case last => exact htables.symm ▸ hleg.last
  case hops => exact ⟨path.length, hleg.distance, by rw [htables, List.length_cons]⟩
  case alone =>
    rintro rfl
    rw [pathBeyond, if_pos rfl] at hpath
    cases hpath
    rw [htables]
  case unaliased => exact ⟨rfl, fun _ hclause => unaliased_of_joinPath hjoins hclause⟩
  case names => exact hnames
  case dotless => exact fun hnone => hnames.mpr fun _ _ b hb hmimics => hnone b hb hmimics.dot_mem
  case joins =>
    intro i clause hclause
    obtain ⟨before, hbefore, -, hon⟩ := of_getElem?_joinPath hjoins hclause
    exact ⟨before, htables.symm ▸ hbefore, follows_of_equate hon⟩
  case tests => exact ⟨table, (findLinkedTable_eq_ok_iff.mp hlinked).1, hcolumns, rfl⟩

/-- The parcels of the customer with the number 3. -/
theorem relates_shop :
    ∃ statement, shop.relatedRows ⟨"shop", "customers"⟩ [("id", .num (.int 3))]
        ⟨"shop", "parcels"⟩ = .ok statement ∧
      statement.render =
        "SELECT parcels.* FROM shop.customers " ++
          "INNER JOIN shop.orders ON shop.orders.customer = shop.customers.id " ++
          "INNER JOIN shop.parcels ON shop.parcels.order = shop.orders.id " ++
          "WHERE shop.customers.id = '3'" ∧
      statement.Relates shop ⟨"shop", "customers"⟩ [("id", .num (.int 3))]
        ⟨"shop", "parcels"⟩ := by
  obtain ⟨statement, hstatement, hrender⟩ := map_eq_ok_iff.mp
    (by decide +kernel : (shop.relatedRows ⟨"shop", "customers"⟩ [("id", .num (.int 3))]
      ⟨"shop", "parcels"⟩).map Statement.render = .ok
        ("SELECT parcels.* FROM shop.customers " ++
          "INNER JOIN shop.orders ON shop.orders.customer = shop.customers.id " ++
          "INNER JOIN shop.parcels ON shop.parcels.order = shop.orders.id " ++
          "WHERE shop.customers.id = '3'"))
  exact ⟨statement, hstatement, hrender, shop.relates_relatedRows _ _ _ _ hstatement⟩

/-! ### Names with dots -/

/-- A shop that sells what was in stock of old. The items of the schema `stock.old` and the table
`old.items` of the schema `stock`, which their key leads to, are written alike. That table does not
list the column that the key leads to. -/
def oldStock : Catalog where
  schemas :=
    [⟨"shop", [⟨"sales",
      [⟨"id", "integer", .number, false, true, [], []⟩,
        ⟨"previous", "integer", .number, true, false, [⟨⟨"shop", "sales"⟩, "id", 1, true⟩], []⟩]⟩]⟩,
    ⟨"stock", [⟨"old.items", [⟨"name", "text", .text, false, false, [], []⟩]⟩]⟩,
    ⟨"stock.old", [⟨"items",
      [⟨"item", "integer", .number, false, false, [⟨⟨"stock", "old.items"⟩, "id", 1, true⟩], []⟩,
        ⟨"sale", "integer", .number, false, false, [⟨⟨"shop", "sales"⟩, "id", 1, true⟩], []⟩]⟩]⟩]

/-- An item is joined to the sale it was sold in. -/
def itemsBySale : JoinClause :=
  ⟨⟨"stock.old", "items"⟩, none, ⟨⟨"stock.old.items", "sale"⟩, ⟨"shop.sales", "id"⟩⟩⟩

/-- What was in stock is joined to the item that refers to it. -/
def stockByItem : JoinClause :=
  ⟨⟨"stock", "old.items"⟩, none, ⟨⟨"stock.old.items", "id"⟩, ⟨"stock.old.items", "item"⟩⟩⟩

/-- **The names of tables need not differ**, and an equation may name a column that its table does
not list. -/
theorem not_nodup_text_oldItems :
    ∃ statement, oldStock.relatedRows ⟨"shop", "sales"⟩ [] ⟨"stock", "old.items"⟩ = .ok statement ∧
      statement.tables = [⟨"shop", "sales"⟩, ⟨"stock.old", "items"⟩, ⟨"stock", "old.items"⟩] ∧
      statement.render =
        "SELECT old.items.* FROM shop.sales " ++
          "INNER JOIN stock.old.items ON stock.old.items.sale = shop.sales.id " ++
          "INNER JOIN stock.old.items ON stock.old.items.id = stock.old.items.item" ∧
      ¬ (statement.tables.map TableRef.text).Nodup ∧
      ∃ clause ∈ statement.joins, clause.table = ⟨"stock", "old.items"⟩ ∧
        ¬ oldStock.HasColumn clause.table clause.on.left.column := by
  refine ⟨⟨.everyColumn "old.items", ⟨"shop", "sales"⟩, none, [itemsBySale, stockByItem], [], [],
    []⟩, by decide +kernel, rfl, by decide +kernel, by decide, stockByItem, by simp, rfl, ?_⟩
  simp [stockByItem, oldStock, Catalog.HasColumn, Catalog.Lists]

/-! ### Whose columns are output -/

/-- The tables of a statement that bear a name, whatever their schemas. -/
def Statement.tablesCalled (statement : Statement) (name : String) : List TableRef :=
  statement.tables.filter (·.table = name)

/-- No key leads from one schema to another. -/
def Catalog.KeepsSchemas (catalog : Catalog) : Prop :=
  ∀ a b, (a, b) ∈ JoinGraph.keyEnds catalog → a.schema = b.schema

/-- The tables on a path are of one schema if no key leads to another. -/
theorem Catalog.KeepsSchemas.schema_eq (hk : catalog.KeepsSchemas) {refs : List TableRef}
    (hchain : refs.IsChain (JoinGraph.ofNames catalog []).Adjacent) :
    ∀ a ∈ refs, ∀ b ∈ refs, a.schema = b.schema := by
  have hschemas : (refs.map (·.schema)).IsChain (· = ·) := by
    rw [List.isChain_map]
    refine hchain.imp fun a b hadjacent => ?_
    rcases (JoinGraph.adjacent_ofCatalog_iff.mp hadjacent).2.2 with hkey | hkey
    · exact hk a b hkey
    · exact (hk b a hkey).symm
  have hall := (List.isChain_iff_pairwise.mp hschemas).forall_of_forall fun _ _ => rfl
  exact fun a ha b hb => hall (List.mem_map_of_mem ha) (List.mem_map_of_mem hb)

namespace Catalog

variable {row : Row}

/-- No other table is called like the foreign one unless it is in another schema. -/
theorem tablesCalled_eq_singleton_iff
    (h : catalog.relatedRows source row target = .ok statement) :
    statement.tablesCalled target.table = [target] ↔
      ∀ other ∈ statement.tables, other.table = target.table → other.schema = target.schema := by
  obtain ⟨path, htables, hleg⟩ := shortLeg_of_relatedRows h
  have hnodup : statement.tables.Nodup := htables ▸ hleg.nodup
  have hmem : target ∈ statement.tables := htables ▸ List.mem_of_getLast? hleg.last
  rw [Statement.tablesCalled, ← List.perm_singleton,
    List.perm_ext_iff_of_nodup (hnodup.filter _) (List.nodup_singleton _)]
  simp only [List.mem_filter, decide_eq_true_eq, List.mem_singleton]
  constructor
  · intro hsame other hother hname
    rw [(hsame other).mp ⟨hother, hname⟩]
  · intro hsame other
    constructor
    · rintro ⟨hother, hname⟩
      exact congrArg₂ TableRef.mk (hsame other hother hname) hname
    · rintro rfl
      exact ⟨hmem, rfl⟩

theorem KeepsSchemas.tablesCalled_eq_singleton (hk : catalog.KeepsSchemas)
    (h : catalog.relatedRows source row target = .ok statement) :
    statement.tablesCalled target.table = [target] := by
  obtain ⟨path, htables, hleg⟩ := shortLeg_of_relatedRows h
  have hmem : target ∈ statement.tables := htables ▸ List.mem_of_getLast? hleg.last
  refine (tablesCalled_eq_singleton_iff h).mpr fun other hother _ => ?_
  exact hk.schema_eq (htables ▸ hleg.chain) other hother target hmem

/-- **Whether only columns of the foreign table are output**: the columns that are output are those
of all tables that are called like it, itself among them. No other one is called so unless it is in
another schema, which takes a key that leads from one schema to another. -/
theorem tablesCalled_relatedRows (catalog : Catalog) (source : TableRef) (row : Row)
    (target : TableRef) (statement : Statement)
    (h : catalog.relatedRows source row target = .ok statement) :
    statement.output = .everyColumn target.table ∧
      target ∈ statement.tablesCalled target.table ∧
      (statement.tablesCalled target.table = [target] ↔
        ∀ other ∈ statement.tables, other.table = target.table → other.schema = target.schema) ∧
      (catalog.KeepsSchemas → statement.tablesCalled target.table = [target]) := by
  obtain ⟨path, htables, hleg⟩ := shortLeg_of_relatedRows h
  have hmem : target ∈ statement.tables := htables ▸ List.mem_of_getLast? hleg.last
  refine ⟨?_, List.mem_filter.mpr ⟨hmem, by simp⟩, tablesCalled_eq_singleton_iff h,
    fun hk => hk.tablesCalled_eq_singleton h⟩
  obtain ⟨_, _, _, _, -, -, -, -, -, rfl⟩ := relatedRows_eq_ok_iff.mp h
  rfl

end Catalog

theorem keepsSchemas_shop : shop.KeepsSchemas := by
  have hall : ∀ ends ∈ JoinGraph.keyEnds shop, ends.1.schema = ends.2.schema := by
    decide +kernel
  exact fun a b hends => hall (a, b) hends

theorem tablesCalled_parcels :
    ∃ statement, shop.relatedRows ⟨"shop", "customers"⟩ [] ⟨"shop", "parcels"⟩ = .ok statement ∧
      statement.tables.length = 3 ∧
      statement.tablesCalled "parcels" = [⟨"shop", "parcels"⟩] := by
  obtain ⟨statement, hstatement, hlength⟩ := map_eq_ok_iff.mp
    (by decide +kernel : (shop.relatedRows ⟨"shop", "customers"⟩ [] ⟨"shop", "parcels"⟩).map
      (·.tables.length) = .ok 3)
  have honly := (shop.tablesCalled_relatedRows _ _ _ _ hstatement).2.2.2
  exact ⟨statement, hstatement, hlength, honly keepsSchemas_shop⟩

/-- The columns of a shop and of its archive. -/
def archiveColumns : List ListedColumn :=
  [⟨⟨"shop", "orders"⟩, "id", "integer", .number, false, true⟩,
    ⟨⟨"archive", "orders"⟩, "original", "integer", .number, false, false⟩]

/-- Every archived order refers to the order of the shop that it was. -/
def archive : Catalog :=
  .assemble archiveColumns [⟨⟨"archive", "orders"⟩, "original", ⟨"shop", "orders"⟩, "id"⟩]

/-- An archived order is joined to the original. -/
def archivedByOriginal : JoinClause :=
  ⟨⟨"archive", "orders"⟩, none, ⟨⟨"archive.orders", "original"⟩, ⟨"shop.orders", "id"⟩⟩⟩

/-- **Columns of another table may be output as well**: those of the shop's orders have the same
qualifier as those of the archived ones. -/
theorem tablesCalled_archivedOrders :
    ∃ statement, archive.relatedRows ⟨"shop", "orders"⟩ [("id", .num (.int 3))]
        ⟨"archive", "orders"⟩ = .ok statement ∧
      statement.render =
        "SELECT orders.* FROM shop.orders " ++
          "INNER JOIN archive.orders ON archive.orders.original = shop.orders.id " ++
          "WHERE shop.orders.id = '3'" ∧
      statement.tablesCalled "orders" = [⟨"shop", "orders"⟩, ⟨"archive", "orders"⟩] := by
  refine ⟨⟨.everyColumn "orders", ⟨"shop", "orders"⟩, none, [archivedByOriginal],
    [.equals ⟨"shop.orders", "id"⟩ "3"], [], []⟩, ?_, ?_, ?_⟩ <;> decide +kernel

namespace Sqlite

variable {schemas : List SchemaDef}

theorem schema_eq_of_mem_relationships {reported : Relationship}
    (h : reported ∈ relationships schemas) :
    reported.localTable.schema = reported.foreignTable.schema := by
  obtain ⟨schema, -, table, -, key, -, ends, -, rfl⟩ := mem_relationships_iff.mp h
  rfl

/-- **In a SQLite database no key leads to another schema.** -/
theorem keepsSchemas_catalog (schemas : List SchemaDef) :
    (Sqlite.catalog schemas).KeepsSchemas := by
  intro a b hends
  rcases Catalog.mem_keyEnds_iff_refers.mp hends with hout | hin
  · obtain ⟨-, -, reported, hreported, -, rfl, -, rfl⟩ := Catalog.refersTo_assemble_iff.mp hout
    exact schema_eq_of_mem_relationships hreported
  · obtain ⟨reported, hreported, rfl, rfl⟩ := Catalog.exists_key_of_referredFrom_assemble hin
    exact (schema_eq_of_mem_relationships hreported).symm

/-- So only columns of the foreign table are output there. -/
theorem tablesCalled_eq_singleton {source target : TableRef} {row : Row} {statement : Statement}
    (h : (Sqlite.catalog schemas).relatedRows source row target = .ok statement) :
    statement.tablesCalled target.table = [target] :=
  (keepsSchemas_catalog schemas).tablesCalled_eq_singleton h

end Sqlite

end JoinPlan
