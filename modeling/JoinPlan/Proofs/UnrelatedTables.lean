import JoinPlan.Proofs.CanonicalTree
import JoinPlan.Proofs.Compilable
import JoinPlan.Proofs.MirroredKeys
import JoinPlan.Proofs.SecludedGraph

/-!
# Unrelated tables do not matter

A query is compiled from the tables that it names, those on the way between them, and the keys of
these. Tables that no key connects with them take no part: leaving them out of the catalog changes
neither the statement, nor the tree behind it, nor the error if there is one.

## Main definitions

* `Catalog.Secluded`: no key connects some tables with the rest of a catalog.
* `Join.Avoids`: a join names no table of a list.

## Main results

* `Catalog.secluded_assemble`: which tables of an assembled catalog are secluded.
* `Catalog.Secluded.findTable_without`, `Catalog.Secluded.equate_without`: look-ups among the rest.
* `Join.normalize_without`: canonical trees do not depend on secluded tables.
* `Query.prepare_without`: neither do compiled queries.
-/

namespace JoinPlan

variable {P : Type} {catalog : Catalog} {ignored : List TableRef} {ref : TableRef}

/-! ### Catalogs -/

/-- A schema is left with all tables of a name that is not ignored. -/
theorem Schema.find?_tables_without (schema : Schema) (hname : schema.name = ref.schema)
    (href : ref ∉ ignored) :
    (schema.without ignored).tables.find? (·.name = ref.table) =
      (schema.tables.find? (·.name = ref.table)).map (·.without ignored) := by
  rw [without, List.find?_map, List.find?_filter]
  refine congrArg _ (congrArg (List.find? · schema.tables) (funext fun table => ?_))
  by_cases hmatch : table.name = ref.table
  · simp [hname, hmatch, href, Table.without]
  · simp [hmatch, Table.without]

namespace Catalog

/-- No key leads into the tables of a list or out of them. -/
def Secluded (catalog : Catalog) (tables : List TableRef) : Prop :=
  ∀ a b, (a, b) ∈ JoinGraph.keyEnds catalog → (a ∈ tables ↔ b ∈ tables)

theorem secluded_assemble {columns : List ListedColumn} {keys : List Relationship}
    (h : ∀ key ∈ keys, key.localTable ∈ ignored ↔ key.foreignTable ∈ ignored) :
    (assemble columns keys).Secluded ignored := by
  intro a b hends
  rcases mem_keyEnds_iff_refers.mp hends with hrefers | hreferred
  · obtain ⟨_, -, key, hkey, -, rfl, -, rfl⟩ := refersTo_assemble_iff.mp hrefers
    exact h key hkey
  · obtain ⟨key, hkey, rfl, rfl⟩ := exists_key_of_referredFrom_assemble hreferred
    exact (h key hkey).symm

namespace Secluded

theorem graph (h : catalog.Secluded ignored) (penalty : TableRef → TableRef → P) :
    (JoinGraph.ofCatalog penalty catalog []).Secluded ignored := by
  intro a b hadjacent ha
  obtain ⟨-, -, hab | hba⟩ := JoinGraph.adjacent_ofCatalog_iff.mp hadjacent
  · rwa [← h a b hab]
  · rwa [h b a hba]

/-- A table of the rest keeps all its keys. -/
theorem table_without (h : catalog.Secluded ignored) {table : Table}
    (hmem : (ref, table) ∈ catalog.tables) (href : ref ∉ ignored) :
    table.without ignored = table := by
  have hlinked : ∀ other ∈ table.linkedTables, other ∉ ignored := fun other hother hin =>
    href ((h ref other (JoinGraph.mem_keyEnds_iff.mpr ⟨table, hmem, hother⟩)).mpr hin)
  have hcolumns : ∀ column ∈ table.columns, column.without ignored = column := by
    intro column hcolumn
    have hkeys : ∀ other ∈ column.linkedTables, other ∉ ignored := fun other hother =>
      hlinked other (List.mem_flatMap.mpr ⟨column, hcolumn, hother⟩)
    simp only [Column.linkedTables, List.forall_mem_append, List.forall_mem_map] at hkeys
    rw [Column.without, List.filter_eq_self.mpr, List.filter_eq_self.mpr]
    · intro key hkey
      simpa using hkeys.2 key hkey
    · intro key hkey
      simpa using hkeys.1 key hkey
  rw [Table.without, List.map_congr_left hcolumns, List.map_id']

/-- Looking up a table of the rest finds the same table, or fails for the same reason. -/
theorem findTable_without (h : catalog.Secluded ignored) (href : ref ∉ ignored) :
    (catalog.without ignored).findTable ref = catalog.findTable ref := by
  have hschemas : (catalog.without ignored).schemas.find? (·.name = ref.schema) =
      (catalog.schemas.find? (·.name = ref.schema)).map (·.without ignored) :=
    List.find?_map
  cases hschema : catalog.schemas.find? (·.name = ref.schema) with
  | none => rw [findTable, findTable, hschemas, hschema]; rfl
  | some schema =>
    have hname : schema.name = ref.schema := by simpa using List.find?_some hschema
    have htables := schema.find?_tables_without hname href
    cases htable : schema.tables.find? (·.name = ref.table) with
    | none =>
      rw [htable] at htables
      simp [findTable, hschemas, hschema, htables, htable]
    | some table =>
      have hfound : catalog.findTable ref = .ok table := by simp [findTable, hschema, htable]
      rw [htable, Option.map_some, h.table_without (mem_tables_of_findTable hfound) href]
        at htables
      simp [findTable, hschemas, hschema, htables, htable]

theorem findLinkedTable_without (h : catalog.Secluded ignored) (href : ref ∉ ignored) :
    (catalog.without ignored).findLinkedTable ref = catalog.findLinkedTable ref := by
  rw [findLinkedTable, findLinkedTable, h.findTable_without href]

theorem equate_without (h : catalog.Secluded ignored) {parent child : TableRef}
    (hparent : parent ∉ ignored) (hchild : child ∉ ignored) (parentName childName : String) :
    (catalog.without ignored).equate parent parentName child childName =
      catalog.equate parent parentName child childName := by
  rw [equate, equate, h.findTable_without hparent, h.findTable_without hchild]

end Secluded

end Catalog

/-! ### Places -/

/-- The join names no table of a list, neither its own nor any to pass through. -/
structure Join.Avoids (join : Join) (tables : List TableRef) : Prop where
  table : join.table ∉ tables
  via : ∀ stop ∈ join.via, stop ∉ tables

instance (join : Join) (tables : List TableRef) : Decidable (join.Avoids tables) :=
  decidable_of_iff (join.table ∉ tables ∧ ∀ stop ∈ join.via, stop ∉ tables)
    ⟨fun h => ⟨h.1, h.2⟩, fun h => ⟨h.table, h.via⟩⟩

namespace Join

variable {join : Join}

theorem checkedSelect_without (hc : catalog.Secluded ignored) (hjoin : join.table ∉ ignored) :
    join.checkedSelect (catalog.without ignored) = join.checkedSelect catalog := by
  rw [checkedSelect, checkedSelect, hc.findTable_without hjoin]

variable [Penalty P] {graph : JoinGraph P} {parent : Option (Nat × AuthoredJoin)}

theorem place_without (hg : graph.Secluded ignored) (hjoin : join.Avoids ignored)
    (hparent : ∀ above ∈ parent, above.2.join.table ∉ ignored) :
    join.place (graph.without ignored) parent = join.place graph parent := by
  cases parent with
  | none => rfl
  | some above =>
    rw [place, place, hg.resolveRoute_without (hparent above rfl) hjoin.table hjoin.via]

mutual

/-- **Joins have the same places without secluded tables**, or none for the same reason. -/
theorem placedFrom_without (hc : catalog.Secluded ignored) (hg : graph.Secluded ignored)
    {parent : Option (Nat × AuthoredJoin)}
    (hparent : ∀ above ∈ parent, above.2.join.table ∉ ignored) (position : Nat) :
    ∀ {join : Join}, (∀ below ∈ join.preOrder, below.Avoids ignored) →
      join.placedFrom (catalog.without ignored) (graph.without ignored) parent position =
        join.placedFrom catalog graph parent position
  | ⟨_, _, _, _, _, _⟩, havoids => by
    rw [preOrder_eq, List.forall_mem_cons] at havoids
    rw [placedFrom_eq, placedFrom_eq, hc.findTable_without havoids.1.table,
      place_without hg havoids.1 hparent]
    refine bind_congr fun _ => bind_congr_of_ok fun entry hentry => bind_congr fun _ => ?_
    have hentry : ∀ above ∈ some (position, entry), above.2.join.table ∉ ignored := by
      simpa [join_of_place hentry] using havoids.1.table
    rw [placedAll_without hc hg hentry (position + 1) havoids.2]

theorem placedAll_without (hc : catalog.Secluded ignored) (hg : graph.Secluded ignored)
    {parent : Option (Nat × AuthoredJoin)}
    (hparent : ∀ above ∈ parent, above.2.join.table ∉ ignored) (position : Nat) :
    ∀ {joins : List Join}, (∀ below ∈ preOrderAll joins, below.Avoids ignored) →
      placedAll (catalog.without ignored) (graph.without ignored) parent position joins =
        placedAll catalog graph parent position joins
  | [], _ => rfl
  | join :: rest, havoids => by
    rw [preOrderAll, List.forall_mem_append] at havoids
    rw [placedAll, placedAll, placedFrom_without hc hg hparent position havoids.1]
    refine bind_congr fun first => ?_
    rw [placedAll_without hc hg hparent (position + first.length) havoids.2]

end

/-! ### Canonical trees -/

/-- **Canonical trees do not depend on secluded tables**, nor do the reasons why there is none. -/
theorem normalize_without (hc : catalog.Secluded ignored) (hg : graph.Secluded ignored)
    {base : Join} (havoids : ∀ join ∈ base.preOrder, join.Avoids ignored) :
    base.normalize (catalog.without ignored) (graph.without ignored) =
      base.normalize catalog graph := by
  have hbase : base.Avoids ignored := havoids base base.self_mem_preOrder
  have hplaced : base.placed (catalog.without ignored) (graph.without ignored) =
      base.placed catalog graph :=
    placedFrom_without hc hg (by simp) 0 havoids
  rw [normalize, normalize, hc.findLinkedTable_without hbase.table, hplaced]
  refine bind_congr fun _ => bind_congr_of_ok fun placed hplaced => ?_
  have hselects : placed.mapM (fun entry => entry.join.checkedSelect (catalog.without ignored)) =
      placed.mapM fun entry => entry.join.checkedSelect catalog := by
    refine mapM_congr fun entry hentry => checkedSelect_without hc ?_
    have hmem : entry.join ∈ base.preOrder :=
      (placement_of_placed hplaced).joins ▸ List.mem_map_of_mem hentry
    exact (havoids _ hmem).table
  rw [hselects]

end Join

/-! ### Statements -/

/-- A way back to the base stays where the base is. -/
theorem JoinGraph.Secluded.notMem_of_leadsBack {graph : JoinGraph P}
    (h : graph.Secluded ignored) {base table : TableRef} {trail : List TableRef}
    (hback : graph.LeadsBack base table trail) (hbase : base ∉ ignored) : table ∉ ignored := by
  have hfirst : trail.reverse.head? = some base := by rw [List.head?_reverse, hback.last]
  have hlast : trail.reverse.getLast? = some table := by rw [List.getLast?_reverse, hback.head]
  obtain ⟨rest, hrest⟩ := List.head?_eq_some_iff.mp hfirst
  have hchain := List.isChain_reverse.mpr hback.chain
  rw [hrest] at hchain hlast
  exact h.notMem_of_isChain hchain hbase table (List.mem_of_getLast? hlast)

namespace JoinTree

variable [Penalty P] {graph : JoinGraph P} {tree : JoinTree} {base : Join}

/-- All joins of a canonical tree, bridges included, lie where the base does. -/
theorem notMem_of_normalize (hg : graph.Secluded ignored) (hbase : base.table ∉ ignored)
    (h : base.normalize catalog graph = .ok tree) : ∀ node ∈ tree.nodes, node.table ∉ ignored := by
  intro node hnode
  obtain ⟨placed, authored, bridges, hbuilt⟩ := built_of_normalize h
  obtain ⟨id, hid⟩ := List.getElem?_of_mem hnode
  exact hg.notMem_of_leadsBack (hbuilt.leadsBack hid) hbase

omit [Penalty P] in
theorem nodeClauses_without (hc : catalog.Secluded ignored)
    (htree : ∀ node ∈ tree.nodes, node.table ∉ ignored) {node : JoinNode}
    (hnode : node ∈ tree.nodes) :
    tree.nodeClauses (catalog.without ignored) node = tree.nodeClauses catalog node := by
  have hjoins : (node.children.filterMap tree.node?).mapM
        (node.joinClause (catalog.without ignored)) =
      (node.children.filterMap tree.node?).mapM (node.joinClause catalog) := by
    refine mapM_congr fun child hchild => ?_
    obtain ⟨id, -, hid⟩ := List.mem_filterMap.mp hchild
    have hbelow := htree child (List.mem_of_getElem? hid)
    rw [JoinNode.joinClause, JoinNode.joinClause, hc.equate_without (htree node hnode) hbelow]
  rw [nodeClauses, nodeClauses, hc.findTable_without (htree node hnode), hjoins]

omit [Penalty P] in
theorem statement_without (hc : catalog.Secluded ignored)
    (htree : ∀ node ∈ tree.nodes, node.table ∉ ignored) :
    tree.statement (catalog.without ignored) = tree.statement catalog := by
  have hclauses : tree.joinsInOrder.mapM (tree.nodeClauses (catalog.without ignored)) =
      tree.joinsInOrder.mapM (tree.nodeClauses catalog) := by
    refine mapM_congr fun node hnode => nodeClauses_without hc htree ?_
    obtain ⟨id, -, hid⟩ := List.mem_filterMap.mp hnode
    exact List.mem_of_getElem? hid
  rw [statement, statement, hclauses]

end JoinTree

/-! ### Queries -/

theorem Query.prepare_without_of_secluded (hc : catalog.Secluded ignored) {query : Query}
    (havoids : ∀ join ∈ query.base.preOrder, join.Avoids ignored) :
    query.prepare (catalog.without ignored) = query.prepare catalog := by
  have hg : (JoinGraph.ofNames catalog []).Secluded ignored := hc.graph namePenalty
  have hbase : query.base.table ∉ ignored := (havoids query.base query.base.self_mem_preOrder).table
  have hgraph : JoinGraph.ofNames (catalog.without ignored) [] =
      (JoinGraph.ofNames catalog []).without ignored :=
    JoinGraph.ofCatalog_without namePenalty catalog ignored
  rw [prepare, prepare, hgraph, Join.normalize_without hc hg havoids]
  refine bind_congr_of_ok fun tree htree => ?_
  rw [JoinTree.statement_without hc (JoinTree.notMem_of_normalize hg hbase htree)]

/-- **Unrelated tables do not matter**: where no key connects some tables with the rest, and a query
names none of them, it compiles without them as it does with them, to the same statement and the
same tree, or it fails with the same error. -/
theorem Query.prepare_without (columns : List ListedColumn) (keys : List Relationship)
    (ignored : List TableRef) (query : Query)
    (hkeys : ∀ key ∈ keys, key.localTable ∈ ignored ↔ key.foreignTable ∈ ignored)
    (hquery : ∀ join ∈ query.base.preOrder, join.Avoids ignored) :
    query.prepare ((Catalog.assemble columns keys).without ignored) =
      query.prepare (Catalog.assemble columns keys) :=
  prepare_without_of_secluded (Catalog.secluded_assemble hkeys) hquery

/-- The columns of those who work in the shop. -/
def staffColumns : List ListedColumn :=
  [⟨⟨"shop", "clerks"⟩, "id", "integer", .number, false, true⟩,
    ⟨⟨"shop", "shifts"⟩, "clerk", "integer", .number, false, false⟩]

/-- Shifts belong to clerks. -/
def staffKeys : List Relationship :=
  [⟨⟨"shop", "shifts"⟩, "clerk", ⟨"shop", "clerks"⟩, "id"⟩]

/-- The tables of those who work in the shop. -/
def staff : List TableRef :=
  [⟨"shop", "clerks"⟩, ⟨"shop", "shifts"⟩]

theorem prepare_without_staff :
    ∃ prepared, (parcelsOfSome ["1", "2"]).prepare shop = .ok prepared ∧
      (parcelsOfSome ["1", "2"]).prepare
        (.assemble (staffColumns ++ shopColumns) (staffKeys ++ shopKeys)) = .ok prepared := by
  obtain ⟨prepared, hprepared⟩ := exists_prepared_parcelsOfSome ["1", "2"]
  have hshop : (Catalog.assemble (staffColumns ++ shopColumns) (staffKeys ++ shopKeys)).without
      staff = shop := by rfl
  refine ⟨prepared, hprepared, ?_⟩
  rw [← Query.prepare_without _ _ staff _ (by decide) ?_, hshop, hprepared]
  simp only [Join.preOrder, Join.preOrderAll, parcelsOfSome]
  decide

end JoinPlan
