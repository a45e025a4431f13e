import JoinPlan.Proofs.Aliases
import JoinPlan.Proofs.Blanking
import JoinPlan.Proofs.DirectKeys
import JoinPlan.Proofs.LiteralScan
import JoinPlan.Proofs.Scoping

/-!
# Literals are safe

Values reach a statement only as literals. As long as there are no quotes in the names of the
catalog, whoever reads the statement finds just these values as its literals, whatever they say, and
what is around them does not depend on them. So no value can pass for anything else.

## Main definitions

* `Catalog.Quoteless`: there are no quotes in the names of a catalog.
* `Statement.Quoteless`: nor in anything that a statement names.
* `IsRendering`: the texts that a statement is sent as.
* `JoinTree.values`, `rowValues`: the values of a tree's conditions, and those of a row.
* `Catalog.LiteralSafe`: the literals of all statements are the values, and nothing else depends on
  these.

## Main results

* `Statement.readsAs`: what is read of a statement.
* `JoinTree.quoteless_statement`, `Catalog.quoteless_relatedRows`: names come from the catalog.
* `Catalog.literalSafe`: literals are safe.
-/

namespace JoinPlan

/-! ### Conditions and filters -/

namespace Condition

theorem valuesOf_eq (parts : List Condition) : valuesOf parts = parts.flatMap values := by
  induction parts with
  | nil => rfl
  | cons part rest ih => rw [valuesOf, ih, List.flatMap_cons]

mutual

/-- **The literals of a condition are its values.** -/
theorem readsAs {qualifier : String} : ∀ condition : Condition,
    (∀ column ∈ condition.columns, Unquoted (qualifier ++ "." ++ column)) →
    ReadsAs (condition.render qualifier) (condition.blank.render qualifier) condition.values
  | .group connective [], _ => by
    have hneutral : Unquoted connective.neutral := by
      cases connective <;> decide
    exact hneutral.readsAs
  | .group connective (part :: rest), h => by
    have hparts := readsAs_of_mem (part :: rest) h
    have hpiece : Unquoted (" " ++ connective.sql ++ " ") ∧ " " ++ connective.sql ++ " " ≠ "" := by
      cases connective <;> decide
    rw [render, blank, blankAll, render, ← blankAll, renderAll_eq, renderAll_eq, blankAll_eq,
      List.map_map, values, valuesOf_eq]
    refine ReadsAs.append_unquoted (Unquoted.readsAs_append (by decide) ?_) (by decide)
    exact ReadsAs.intercalate hpiece.1 hpiece.2 hparts
  | .membership column operator values, h => by
    have hcolumn := h column (List.mem_singleton.mpr rfl)
    have hoperator : Unquoted operator.sql := by
      cases operator <;> decide
    have hfront : Unquoted (qualifier ++ "." ++ column ++ " " ++ operator.sql ++ " (") :=
      ((hcolumn.append (by decide)).append hoperator).append (by decide)
    have hvalues := ReadsAs.intercalate (by decide : Unquoted ",") (by decide)
      fun value (_ : value ∈ values) => readsAs_quoteLiteral value
    rw [List.flatMap_singleton'] at hvalues
    rw [render, blank, render, List.map_map]
    exact (hfront.readsAs_append hvalues).append_unquoted (by decide)
  | .comparison column operator value, h => by
    have hcolumn := h column (List.mem_singleton.mpr rfl)
    have hoperator : Unquoted operator.sql := by
      cases operator <;> decide
    exact Unquoted.readsAs_append
      (((hcolumn.append (by decide)).append hoperator).append (by decide))
      (readsAs_quoteLiteral value)

theorem readsAs_of_mem {qualifier : String} : ∀ parts : List Condition,
    (∀ column ∈ columnsOf parts, Unquoted (qualifier ++ "." ++ column)) → ∀ part ∈ parts,
    ReadsAs (part.render qualifier) (part.blank.render qualifier) part.values
  | [], _ => by simp
  | part :: rest, h => by
    obtain ⟨hpart, hrest⟩ := List.forall_mem_append.mp h
    exact List.forall_mem_cons.mpr ⟨readsAs part hpart, readsAs_of_mem rest hrest⟩

end

end Condition

/-- There are no quotes in either part of the column's name. -/
def QualifiedColumn.Quoteless (column : QualifiedColumn) : Prop :=
  Unquoted column.qualifier ∧ Unquoted column.column

theorem QualifiedColumn.Quoteless.text {column : QualifiedColumn} (h : column.Quoteless) :
    Unquoted column.text :=
  (h.1.append (by decide)).append h.2

theorem Filter.readsAs {filter : Filter} (h : ∀ column ∈ filter.columns, column.Quoteless) :
    ReadsAs filter.render filter.blank.render filter.values := by
  cases filter with
  | condition qualifier c =>
    refine c.readsAs fun column hcolumn => ?_
    exact (h ⟨qualifier, column⟩ (List.mem_map_of_mem hcolumn)).text
  | equals column value =>
    have hcolumn := (h column (List.mem_singleton.mpr rfl)).text
    exact (hcolumn.append (by decide)).readsAs_append (readsAs_quoteLiteral value)
  | isNull column =>
    have hcolumn := (h column (List.mem_singleton.mpr rfl)).text
    exact (hcolumn.append (by decide)).readsAs

/-! ### Statements -/

/-- There are no quotes in anything that a statement names. -/
structure Statement.Quoteless (statement : Statement) : Prop where
  output : Unquoted statement.output.render
  source : Unquoted (renderSource statement.table statement.joinAlias)
  joins : ∀ clause ∈ statement.joins, Unquoted clause.render
  filters : ∀ filter ∈ statement.filters, ∀ column ∈ filter.columns, column.Quoteless
  groupBy : ∀ column ∈ statement.groupBy, column.Quoteless
  orderBy : ∀ key ∈ statement.orderBy, key.column.Quoteless

/-- The texts that a statement is sent as: whole, with at most so many rows, or for the number of
its rows. -/
inductive IsRendering : (Statement → String) → Prop
  | whole : IsRendering Statement.render
  | limited (limit : Option Nat) : IsRendering (·.renderLimited limit)
  | counted : IsRendering Statement.renderCount

/-- **The literals of a statement are its values**, and nothing else that is read of it depends on
them. -/
theorem Statement.readsAs {statement : Statement} (h : statement.Quoteless)
    {form : Statement → String} (hform : IsRendering form) :
    ReadsAs (form statement) (form statement.blank) statement.values := by
  have hwhole : ReadsAs statement.render statement.blank.render statement.values := by
    have hfront : Unquoted ("SELECT " ++ statement.output.render ++ " FROM " ++
        renderSource statement.table statement.joinAlias ++
        String.join (statement.joins.map fun clause => " " ++ clause.render)) := by
      refine Unquoted.append ?_ (unquoted_join ?_)
      · have hselect : Unquoted ("SELECT " ++ statement.output.render) :=
          (by decide : Unquoted "SELECT ").append h.output
        exact (hselect.append (by decide)).append h.source
      · rw [List.forall_mem_map]
        exact fun clause hclause => (by decide : Unquoted " ").append (h.joins clause hclause)
    have hgroup : Unquoted
        (renderClause " GROUP BY " ", " (statement.groupBy.map QualifiedColumn.text)) :=
      unquoted_renderClause (by decide) (by decide)
        (List.forall_mem_map.mpr fun column hcolumn => (h.groupBy column hcolumn).text)
    have horder : Unquoted
        (renderClause " ORDER BY " ", " (statement.orderBy.map SortKey.render)) := by
      refine unquoted_renderClause (by decide) (by decide) (List.forall_mem_map.mpr ?_)
      intro key hkey
      refine ((h.orderBy key hkey).text.append (by decide)).append ?_
      cases key.direction <;> decide
    have hfilters := ReadsAs.renderClause (by decide : Unquoted " WHERE ")
      (by decide : Unquoted " AND ") (by decide)
      fun filter hfilter => Filter.readsAs (h.filters filter hfilter)
    have hblank : statement.filters.map (fun filter => filter.blank.render) =
        statement.blank.filters.map Filter.render := by
      rw [Statement.blank, List.map_map]
      rfl
    rw [hblank] at hfilters
    exact ((hfront.readsAs_append hfilters).append_unquoted hgroup).append_unquoted horder
  cases hform with
  | whole => exact hwhole
  | limited limit =>
    cases limit with
    | none => exact hwhole
    | some n =>
      exact (hwhole.append_unquoted (by decide)).append_unquoted (unquoted_toString n)
  | counted =>
    exact (Unquoted.readsAs_append (by decide) hwhole).append_unquoted (by decide)

/-! ### Names -/

namespace Catalog

/-- There are no quotes in the names of the catalog: those of schemas, tables and columns, where
they are listed and where keys mention them. -/
structure Quoteless (catalog : Catalog) : Prop where
  tables : ∀ ref, catalog.HasTable ref → Unquoted ref.schema ∧ Unquoted ref.table
  columns : ∀ ref column, catalog.Lists ref column → Unquoted column.name
  keys : ∀ ref column, catalog.Lists ref column → ∀ key ∈ column.outbound,
    Unquoted key.foreignColumn

variable {catalog : Catalog} {ref parent child : TableRef}

theorem Quoteless.text (h : catalog.Quoteless) (href : catalog.HasTable ref) :
    Unquoted ref.text :=
  ((h.tables ref href).1.append (by decide)).append (h.tables ref href).2

theorem Quoteless.numberedAlias (h : catalog.Quoteless) (href : catalog.HasTable ref) (n : Nat) :
    Unquoted (numberedAlias ref n) := by
  obtain ⟨hschema, htable⟩ := h.tables ref href
  exact (((hschema.append (by decide)).append htable).append (by decide)).append
    (unquoted_toString n)

theorem Quoteless.column (h : catalog.Quoteless) {name : String}
    (hname : catalog.HasColumn ref name) : Unquoted name := by
  obtain ⟨column, hlisted, rfl⟩ := hname
  exact h.columns ref column hlisted

/-- There are no quotes in an equation if there are none in what qualifies its columns. -/
theorem Quoteless.equate (h : catalog.Quoteless) {parentName childName : String}
    (hparent : Unquoted parentName) (hchild : Unquoted childName) {on : Equation}
    (hon : catalog.equate parent parentName child childName = .ok on) : Unquoted on.render := by
  have hends : ∀ {a b : TableRef} {table : Table} {column : Column} {key : OutboundKey},
      catalog.findTable a = .ok table → table.keyTo? b = some (column, key) →
      Unquoted column.name ∧ Unquoted key.foreignColumn := by
    intro a b table column key htable hkey
    obtain ⟨hlisted, hout, -⟩ := lists_of_keyTo? htable hkey
    exact ⟨h.columns a column hlisted, h.keys a column hlisted key hout⟩
  have hrender : ∀ {left right : QualifiedColumn}, left.Quoteless → right.Quoteless →
      Unquoted (Equation.render ⟨left, right⟩) :=
    fun hleft hright => (hleft.text.append (by decide)).append hright.text
  rcases equate_cases hon with ⟨table, column, key, htable, hkey, rfl⟩ |
    ⟨table, column, key, htable, hkey, rfl⟩
  · obtain ⟨hlocal, hforeign⟩ := hends htable hkey
    exact hrender ⟨hchild, hforeign⟩ ⟨hparent, hlocal⟩
  · obtain ⟨hlocal, hforeign⟩ := hends htable hkey
    exact hrender ⟨hchild, hlocal⟩ ⟨hparent, hforeign⟩

end Catalog

variable {catalog : Catalog} {tree : JoinTree} {node : JoinNode}

/-- There are no quotes in the names of a join. -/
structure JoinNode.Quoteless (node : JoinNode) : Prop where
  table : Unquoted node.table.text
  joinAlias : Unquoted node.joinAlias

theorem JoinNode.Quoteless.source (h : node.Quoteless) :
    Unquoted (renderSource node.table (some node.joinAlias)) :=
  (h.table.append (by decide)).append h.joinAlias

theorem JoinNode.Quoteless.of_owns (h : node.Quoteless) (hq : catalog.Quoteless)
    {column : QualifiedColumn} (hcolumn : node.Owns catalog column) : column.Quoteless :=
  ⟨hcolumn.1 ▸ h.joinAlias, hq.column hcolumn.2⟩

/-- The clauses of a join name nothing with quotes. -/
theorem JoinTree.quoteless_joins (hq : catalog.Quoteless)
    (hnodes : ∀ node ∈ tree.nodes, node.Quoteless) {statement : Statement}
    (h : tree.statement catalog = .ok statement) {clause : JoinClause}
    (hclause : clause ∈ statement.joins) : Unquoted clause.render := by
  obtain ⟨above, habove, below, hbelow, hmade⟩ := exists_joinClause h hclause
  have hnames := hnodes below (mem_nodes_of_mem_joinsBelow hbelow)
  obtain ⟨on, hon, rfl⟩ := JoinNode.joinClause_eq_ok_iff.mp hmade
  have hequation := hq.equate (hnodes above habove).joinAlias hnames.joinAlias hon
  exact (((by decide : Unquoted "INNER JOIN ").append hnames.source).append (by decide)).append
    hequation

/-- **A statement names nothing with quotes** if there are none in the names of the catalog and in
the aliases. -/
theorem JoinTree.quoteless_statement (hq : catalog.Quoteless)
    (hnodes : ∀ node ∈ tree.nodes, node.Quoteless) {statement : Statement}
    (h : tree.statement catalog = .ok statement) : statement.Quoteless := by
  have hresolves : ∀ column, tree.Resolves catalog column → column.Quoteless := by
    rintro column ⟨node, hnode, hown⟩
    exact (hnodes node hnode).of_owns hq hown
  have hresolved := resolved_statement h
  have hjoins : ∀ clause ∈ statement.joins, Unquoted clause.render :=
    fun _ hclause => quoteless_joins hq hnodes h hclause
  obtain ⟨clauses, base, -, -, -, hbase, rfl⟩ := statement_eq_ok_iff.mp h
  refine ⟨?_, (hnodes base (List.mem_of_getElem? hbase)).source, ?_, ?_, ?_, ?_⟩
  · obtain ⟨columns, heq, hcolumns⟩ := hresolved.output
    rw [heq, Output.render]
    refine unquoted_intercalate (by decide) (List.forall_mem_map.mpr fun column hcolumn => ?_)
    have hnames := hresolves column (hcolumns column hcolumn)
    exact (hnames.text.append (by decide)).append ((hnames.1.append (by decide)).append hnames.2)
  · exact hjoins
  · exact fun filter hfilter column hcolumn =>
      hresolves column (hresolved.filters filter hfilter column hcolumn)
  · exact fun column hcolumn => hresolves column (hresolved.groupBy column hcolumn)
  · exact fun key hkey => hresolves key.column (hresolved.orderBy key hkey)

/-- There are no quotes in the names of any join of a canonical tree, bridges included. -/
theorem Join.quoteless_of_normalize {P : Type} [Penalty P] (hq : catalog.Quoteless)
    {penalty : TableRef → TableRef → P} {ignored : List TableRef} {base : Join}
    (h : base.normalize catalog (JoinGraph.ofCatalog penalty catalog ignored) = .ok tree) :
    ∀ node ∈ tree.nodes, node.Quoteless := by
  have hnumbered := Join.numbered_of_normalize h
  obtain ⟨placed, authored, bridges, hbuilt⟩ := JoinTree.built_of_normalize h
  obtain ⟨linked, hlinked, -⟩ := bind_eq_ok_iff.mp h
  obtain ⟨table, htable, -⟩ := bind_eq_ok_iff.mp hlinked
  intro node hnode
  have hlisted := hbuilt.hasTable ⟨table, Catalog.mem_tables_of_findTable htable⟩ hnode
  obtain ⟨n, halias⟩ := JoinTree.exists_numberedAlias hnumbered hnode
  exact ⟨hq.text hlisted, halias ▸ hq.numberedAlias hlisted n⟩

/-! ### Values -/

/-- The values that the rows of a join are compared with. -/
def JoinNode.values (node : JoinNode) : List String :=
  node.condition.toList.flatMap Condition.values

/-- The values of all conditions of a tree, the joins in pre-order and the leaves of a condition
from left to right. -/
def JoinTree.values (tree : JoinTree) : List String :=
  tree.joinsInOrder.flatMap JoinNode.values

theorem JoinTree.values_statement {statement : Statement}
    (h : tree.statement catalog = .ok statement) : statement.values = tree.values := by
  obtain ⟨clauses, _, hclauses, -, -, -, rfl⟩ := statement_eq_ok_iff.mp h
  have hfilters : ∀ node contributed, tree.nodeClauses catalog node = .ok contributed →
      node.values = contributed.filters.flatMap Filter.values := by
    intro node contributed hnode
    obtain ⟨_, _, -, -, -, -, rfl⟩ := nodeClauses_eq_ok_iff.mp hnode
    rw [JoinNode.values, List.flatMap_map]
    rfl
  have hall := map_eq_map_of_forall₂ (mapM_eq_ok_iff.mp hclauses) hfilters
  rw [Statement.values, List.flatMap_assoc, JoinTree.values, List.flatMap_def, List.flatMap_def,
    hall]

/-- The text that a value is compared as. Null is not compared. -/
def Json.compared? : Json → Option String
  | .null => none
  | .str text => some text
  | value => some value.compact

/-- The values of a row, in order, but for those that are null. -/
def rowValues (row : Row) : List String :=
  row.filterMap fun entry => entry.2.compared?

/-! ### Related rows -/

theorem values_rowFilter (column : QualifiedColumn) (value : Json) :
    (rowFilter column value).values = value.compared?.toList := by
  cases value <;> rfl

theorem columns_rowFilter (column : QualifiedColumn) (value : Json) :
    (rowFilter column value).columns = [column] := by
  cases value <;> rfl

theorem Row.values_filters (ref : TableRef) (row : Row) :
    (row.filters ref).flatMap Filter.values = rowValues row := by
  rw [Row.filters, List.flatMap_map, rowValues, List.filterMap_eq_flatMap_toList]
  exact congrArg (List.flatMap · row) (funext fun entry => values_rowFilter _ _)

namespace Catalog

/-- The clauses along a path name nothing with quotes. -/
theorem Quoteless.joinPath (hq : catalog.Quoteless) {source : TableRef} {rest : List TableRef}
    (hlisted : ∀ ref ∈ source :: rest, catalog.HasTable ref) {clauses : List JoinClause}
    (h : catalog.joinPath source rest = .ok clauses) :
    ∀ clause ∈ clauses, Unquoted clause.render := by
  induction rest generalizing source clauses with
  | nil =>
    cases h
    simp
  | cons target rest ih =>
    obtain ⟨hsource, hrest⟩ := List.forall_mem_cons.mp hlisted
    have htarget := hq.text (hrest target List.mem_cons_self)
    obtain ⟨on, hon, h⟩ := bind_eq_ok_iff.mp h
    obtain ⟨others, hothers, h⟩ := bind_eq_ok_iff.mp h
    cases h
    refine List.forall_mem_cons.mpr ⟨?_, ih hrest hothers⟩
    exact (((by decide : Unquoted "INNER JOIN ").append htarget).append (by decide)).append
      (hq.equate (hq.text hsource) htarget hon)

/-- Every table that a link leads to is listed. -/
theorem hasTable_of_isChain {source : TableRef} {path : List TableRef}
    (h : (source :: path).IsChain (JoinGraph.ofNames catalog []).Adjacent) :
    ∀ ref ∈ path, catalog.HasTable ref := by
  induction path generalizing source with
  | nil => simp
  | cons target rest ih =>
    obtain ⟨hadjacent, hrest⟩ := List.isChain_cons_cons.mp h
    have htarget := (JoinGraph.adjacent_ofCatalog_iff.mp hadjacent).2.1
    exact List.forall_mem_cons.mpr ⟨(JoinGraph.mem_tables_ofCatalog.mp htarget).1, ih hrest⟩

/-- **A statement for related rows names nothing with quotes** if there are none in the names of the
catalog. Its values are those of the row. -/
theorem quoteless_relatedRows (hq : catalog.Quoteless) {localTable foreignTable : TableRef}
    {row : Row} {statement : Statement}
    (h : catalog.relatedRows localTable row foreignTable = .ok statement) :
    statement.Quoteless ∧ statement.values = rowValues row := by
  obtain ⟨table, foreign, path, joins, hlinked, hforeign, hpath, hjoins, hcolumns, rfl⟩ :=
    relatedRows_eq_ok_iff.mp h
  have htable := (findLinkedTable_eq_ok_iff.mp hlinked).1
  have hlocal : catalog.HasTable localTable := ⟨table, mem_tables_of_findTable htable⟩
  refine ⟨⟨?_, hq.text hlocal, ?_, ?_, by simp, by simp⟩, row.values_filters localTable⟩
  · have houtput := (hq.tables foreignTable ⟨foreign, mem_tables_of_findTable hforeign⟩).2
    exact houtput.append (by decide)
  · refine hq.joinPath (List.forall_mem_cons.mpr ⟨hlocal, ?_⟩) hjoins
    exact hasTable_of_isChain (shortLeg_of_pathBeyond hpath).chain
  · rw [Row.filters, List.forall_mem_map]
    intro entry hentry column hcolumn
    rw [columns_rowFilter, List.mem_singleton] at hcolumn
    subst hcolumn
    exact ⟨hq.text hlocal, hq.column (hasColumn_of_findTable htable (hcolumns entry hentry))⟩

end Catalog

/-! ### Literal safety -/

/-- The literals of every statement are its values, and what is around them does not depend on
them. -/
structure Catalog.LiteralSafe (catalog : Catalog) : Prop where
  /-- The literals of a compiled query are the values of its conditions, and the last one ends. -/
  prepare : ∀ (query : Query) prepared, query.prepare catalog = .ok prepared →
    ∀ form, IsRendering form → literals? (form prepared.statement) = some prepared.tree.values
  /-- Queries that only differ in their values come to the same, but for their literals. -/
  prepare_outside : ∀ a b : Query, a.blank = b.blank → ∀ form, IsRendering form →
    (a.prepare catalog).map (fun prepared => outside? (form prepared.statement)) =
      (b.prepare catalog).map fun prepared => outside? (form prepared.statement)
  /-- The literals of a statement for related rows are the values of the row. -/
  relatedRows : ∀ localTable row foreignTable statement,
    catalog.relatedRows localTable row foreignTable = .ok statement →
    ∀ form, IsRendering form → literals? (form statement) = some (rowValues row)
  /-- Rows that only differ in their values come to the same, but for the literals. -/
  relatedRows_outside : ∀ localTable a b foreignTable, blankRow a = blankRow b →
    ∀ form, IsRendering form →
    (catalog.relatedRows localTable a foreignTable).map
        (fun statement => outside? (form statement)) =
      (catalog.relatedRows localTable b foreignTable).map fun statement => outside? (form statement)

theorem Query.quoteless_prepare (hq : catalog.Quoteless) {query : Query} {prepared : Prepared}
    (h : query.prepare catalog = .ok prepared) :
    prepared.statement.Quoteless ∧ prepared.statement.values = prepared.tree.values := by
  obtain ⟨tree, statement, htree, hstatement, rfl⟩ := prepare_eq_ok_iff.mp h
  have hnodes := Join.quoteless_of_normalize hq htree
  exact ⟨JoinTree.quoteless_statement hq hnodes hstatement, JoinTree.values_statement hstatement⟩

/-- **Literals are safe** if there are no quotes in the names of the catalog. -/
theorem Catalog.literalSafe (catalog : Catalog) (hq : catalog.Quoteless) : catalog.LiteralSafe := by
  refine ⟨?_, ?_, ?_, ?_⟩
  · intro query prepared h form hform
    obtain ⟨hquoteless, hvalues⟩ := Query.quoteless_prepare hq h
    rw [(Statement.readsAs hquoteless hform).literals?_eq, hvalues]
  · intro a b hab form hform
    have hblank : ∀ query : Query,
        (query.prepare catalog).map (fun prepared => outside? (form prepared.statement)) =
          (query.blank.prepare catalog).map fun prepared => scan (form prepared.statement) := by
      intro query
      rw [Query.prepare_blank]
      exact map_eq_map_map fun prepared h =>
        (Statement.readsAs (Query.quoteless_prepare hq h).1 hform).outside?_eq
    rw [hblank a, hblank b, hab]
  · intro localTable row foreignTable statement h form hform
    obtain ⟨hquoteless, hvalues⟩ := quoteless_relatedRows hq h
    rw [(Statement.readsAs hquoteless hform).literals?_eq, hvalues]
  · intro localTable a b foreignTable hab form hform
    have hblank : ∀ row : Row, (catalog.relatedRows localTable row foreignTable).map
          (fun statement => outside? (form statement)) =
        (catalog.relatedRows localTable (blankRow row) foreignTable).map
          fun statement => scan (form statement) := by
      intro row
      rw [relatedRows_blank]
      exact map_eq_map_map fun statement h =>
        (Statement.readsAs (quoteless_relatedRows hq h).1 hform).outside?_eq
    rw [hblank a, hblank b, hab]

/-- What two queries come to that only differ in their values is the same outside the literals. -/
theorem Catalog.LiteralSafe.outside?_sql (h : catalog.LiteralSafe) {a b : Query}
    {first second : Prepared} (ha : a.prepare catalog = .ok first)
    (hb : b.prepare catalog = .ok second) (hab : a.blank = b.blank) :
    outside? first.sql = outside? second.sql := by
  have hsame := h.prepare_outside a b hab _ .whole
  rw [ha, hb] at hsame
  exact Except.ok.inj hsame

theorem quoteless_shop : shop.Quoteless := by
  refine ⟨?_, ?_, ?_⟩
  · rintro ref ⟨table, hmem⟩
    have hall : ∀ ref ∈ shop.tables.map (·.1), Unquoted ref.schema ∧ Unquoted ref.table := by
      decide
    exact hall ref (List.mem_map_of_mem hmem)
  · intro ref column hlisted
    obtain ⟨reported, hreported, -, rfl⟩ := Catalog.lists_assemble_iff.mp hlisted
    exact (by decide : ∀ reported ∈ shopColumns, Unquoted reported.name) reported hreported
  · intro ref column hlisted outbound hout
    obtain ⟨reported, -, -, rfl⟩ := Catalog.lists_assemble_iff.mp hlisted
    obtain ⟨key, hkey, rfl⟩ := List.mem_map.mp hout
    exact (by decide : ∀ key ∈ shopKeys, Unquoted key.foreignColumn) key
      (List.mem_of_mem_filter hkey)

theorem literalSafe_shop :
    shop.Quoteless ∧ shop.LiteralSafe ∧
    ∃ prepared other, (parcelsOfSome ["'", "1' OR '1'='1"]).prepare shop = .ok prepared ∧
      (parcelsOfSome ["1", "2"]).prepare shop = .ok other ∧
      literals? prepared.sql = some prepared.tree.values ∧
      outside? prepared.sql = outside? other.sql := by
  have hshop := shop.literalSafe quoteless_shop
  obtain ⟨prepared, hprepared⟩ := exists_prepared_parcelsOfSome ["'", "1' OR '1'='1"]
  obtain ⟨other, hother⟩ := exists_prepared_parcelsOfSome ["1", "2"]
  exact ⟨quoteless_shop, hshop, prepared, other, hprepared, hother,
    hshop.prepare _ _ hprepared _ .whole, hshop.outside?_sql hprepared hother rfl⟩

end JoinPlan
