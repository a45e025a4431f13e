import JoinPlan.Proofs.CanonicalTree
import JoinPlan.Proofs.ListedColumns
import JoinPlan.Proofs.RouteLegs
import JoinPlan.Survey.Distance

/-!
# Which tables are related

The tables related to a table are found by one search each, over links that have penalties.
Penalties decide between paths of equally many hops, so what is reported of a table is its distance,
the least number of hops that lead to it, and a bound on joins is a bound on distances. A larger
bound adds tables and takes none away.

## Main definitions

* `Catalog.RelatedWithin`: the tables whose distance from a table is at most some number.

## Main results

* `JoinGraph.exists_cheapestTrail?_iff`: the hops of a cheapest trail are the distance.
* `Catalog.relatedTables_assemble`: which tables are related in an assembled catalog.
-/

namespace JoinPlan

/-- What is made of some elements of a list, each telling which one, tells them in their order. -/
theorem map_filterMap_sublist {α β : Type} (make? : α → Option β) {origin : β → α}
    (h : ∀ x y, make? x = some y → origin y = x) (xs : List α) :
    ((xs.filterMap make?).map origin).Sublist xs := by
  induction xs with
  | nil => exact List.Sublist.refl _
  | cons x xs ih =>
    rw [List.filterMap_cons]
    split
    · exact ih.cons x
    · rename_i y hy
      rw [List.map_cons, h x y hy]
      exact ih.cons_cons x

namespace JoinGraph

variable {P : Type} {graph : JoinGraph P} {source target : TableRef} {hops other : Nat}

theorem Distance.unique (h : graph.Distance source target hops)
    (h' : graph.Distance source target other) : hops = other :=
  Nat.le_antisymm (h.2 _ h'.1) (h'.2 _ h.1)

/-- It takes a hop to get to another table. -/
theorem Walk.pos (h : graph.Walk source target hops) (hne : target ≠ source) : 0 < hops := by
  cases h with
  | stay => exact absurd rfl hne
  | step => exact Nat.succ_pos _

variable [Penalty P]

theorem distance_of_cheapestTrail? {trail : Trail P}
    (h : graph.cheapestTrail? source target = some trail) :
    graph.Distance source target trail.cost.hops := by
  obtain ⟨hhead, hlast, -, hchain, hlength, hleast⟩ := shortest_of_cheapestTrail? h
  have hwalk := walk_of_path hhead hlast hchain
  rw [hlength, Nat.add_sub_cancel] at hwalk
  exact ⟨hwalk, hleast⟩

/-- **The hops of a cheapest trail are the distance**, whatever the penalties. -/
theorem exists_cheapestTrail?_iff (hsource : graph.contains source = true)
    (htarget : graph.contains target = true) :
    (∃ trail, graph.cheapestTrail? source target = some trail ∧ trail.cost.hops = hops) ↔
      graph.Distance source target hops := by
  constructor
  · rintro ⟨trail, htrail, rfl⟩
    exact distance_of_cheapestTrail? htrail
  · intro hdistance
    have hsome := cheapestTrail?_isSome_iff.mpr ⟨hsource, htarget, hops, hdistance.1⟩
    obtain ⟨trail, htrail⟩ := Option.isSome_iff_exists.mp hsome
    exact ⟨trail, htrail, (distance_of_cheapestTrail? htrail).unique hdistance⟩

end JoinGraph

namespace Catalog

variable {catalog : Catalog} {source table : TableRef} {maxJoins : Option Nat} {fewer : Nat}
  {entry : RelatedTable}

/-! ### One table -/

theorem relatedTable?_eq_some_iff {P : Type} [Penalty P] {graph : JoinGraph P}
    (hsource : graph.contains source = true) (htable : graph.contains table = true) :
    relatedTable? graph source maxJoins table = some entry ↔
      entry.table = table ∧ graph.Distance source table entry.joins ∧
        ∀ most ∈ maxJoins, entry.joins ≤ most := by
  rw [← JoinGraph.exists_cheapestTrail?_iff hsource htable, relatedTable?]
  cases graph.cheapestTrail? source table with
  | none => simp
  | some trail =>
    have hall : maxJoins.all (trail.cost.hops ≤ ·) = true ↔
        ∀ most ∈ maxJoins, trail.cost.hops ≤ most := by
      cases maxJoins <;> simp
    simp only [hall, Option.some.injEq, exists_eq_left']
    constructor
    · intro h
      split_ifs at h with hwithin
      cases h
      exact ⟨rfl, rfl, hwithin⟩
    · rintro ⟨rfl, hjoins, hwithin⟩
      rw [hjoins, if_pos hwithin]

theorem table_of_relatedTable? {P : Type} [Penalty P] {graph : JoinGraph P}
    (h : relatedTable? graph source maxJoins table = some entry) : entry.table = table := by
  rw [relatedTable?] at h
  split at h
  · split_ifs at h
    cases h
    rfl
  · cases h

/-- A smaller bound leaves out what is beyond it, and nothing else. -/
theorem relatedTable?_of_fewer {P : Type} [Penalty P] (graph : JoinGraph P)
    (h : ∀ most ∈ maxJoins, fewer ≤ most) : relatedTable? graph source (some fewer) table =
      (relatedTable? graph source maxJoins table).filter (·.joins ≤ fewer) := by
  rw [relatedTable?, relatedTable?]
  cases graph.cheapestTrail? source table with
  | none => rfl
  | some trail =>
    by_cases hfewer : trail.cost.hops ≤ fewer
    · have hall : maxJoins.all (trail.cost.hops ≤ ·) = true := by
        cases maxJoins with
        | none => rfl
        | some most => simpa using hfewer.trans (h most rfl)
      simp [hall, hfewer, Option.filter_some]
    · by_cases hall : maxJoins.all (trail.cost.hops ≤ ·) = true <;>
        simp [hall, hfewer, Option.filter_some]

/-! ### All tables -/

/-- The tables of a catalog whose distance from a table is within a bound, if there is any, each
once with its distance and in catalog order. -/
structure RelatedWithin (catalog : Catalog) (source : TableRef) (maxJoins : Option Nat)
    (related : List RelatedTable) : Prop where
  mem_iff : ∀ entry, entry ∈ related ↔
    entry.table ≠ source ∧ catalog.HasTable entry.table ∧
      (JoinGraph.ofNames catalog []).Distance source entry.table entry.joins ∧
      ∀ most ∈ maxJoins, entry.joins ≤ most
  sublist : (related.map (·.table)).Sublist (catalog.tables.map (·.1))
  nodup : (related.map (·.table)).Nodup

/-- No table comes up twice. -/
theorem Unambiguous.nodup_tables (h : catalog.Unambiguous) :
    (catalog.tables.map (·.1)).Nodup := by
  rw [Catalog.tables, List.map_flatMap, List.nodup_flatMap]
  refine ⟨fun schema hschema => ?_, (List.pairwise_map.mp h.schemas).imp fun {a b} hne => ?_⟩
  · rw [List.map_map, List.nodup_iff_pairwise_ne, List.pairwise_map]
    refine (List.pairwise_map.mp (h.tables schema hschema)).imp fun hne heq => hne ?_
    exact congrArg TableRef.table heq
  · rw [Function.onFun_apply, List.map_map, List.map_map, List.disjoint_left]
    rintro _ hin hin'
    obtain ⟨table, -, rfl⟩ := List.mem_map.mp hin
    obtain ⟨other, -, heq⟩ := List.mem_map.mp hin'
    exact hne (congrArg TableRef.schema heq).symm

/-- What is found for a table that has foreign keys. -/
theorem Unambiguous.relatedTables_eq (h : catalog.Unambiguous) (hkeys : catalog.HasKeys source)
    (maxJoins : Option Nat) : catalog.relatedTables source maxJoins =
      .ok (((catalog.tables.map (·.1)).filter (· ≠ source)).filterMap
        (relatedTable? (JoinGraph.ofNames catalog []) source maxJoins)) := by
  obtain ⟨entry, hentry⟩ := h.exists_findLinkedTable_iff.mpr hkeys
  rw [relatedTables, hentry]
  rfl

theorem HasKeys.hasTable (h : catalog.HasKeys source) : catalog.HasTable source := by
  obtain ⟨column, hlisted, -⟩ := h
  obtain ⟨entry, hentry, -⟩ := lists_iff.mp hlisted
  exact ⟨entry, hentry⟩

theorem contains_ofNames (h : catalog.HasTable table) :
    (JoinGraph.ofNames catalog []).contains table = true := by
  rw [JoinGraph.contains, List.contains_iff_mem, JoinGraph.ofNames, JoinGraph.mem_tables_ofCatalog]
  exact ⟨h, List.not_mem_nil⟩

/-- **What is found are the tables within the bound.** -/
theorem Unambiguous.relatedWithin (h : catalog.Unambiguous) (hkeys : catalog.HasKeys source)
    {related : List RelatedTable} (hrelated : catalog.relatedTables source maxJoins = .ok related) :
    catalog.RelatedWithin source maxJoins related := by
  rw [h.relatedTables_eq hkeys] at hrelated
  cases hrelated
  have hsublist := (map_filterMap_sublist
    (relatedTable? (JoinGraph.ofNames catalog []) source maxJoins)
    (fun _ _ => table_of_relatedTable?) ((catalog.tables.map (·.1)).filter (· ≠ source))).trans
      List.filter_sublist
  refine ⟨fun entry => ?_, hsublist, h.nodup_tables.sublist hsublist⟩
  have hhas : ∀ table, table ∈ catalog.tables.map (·.1) ↔ catalog.HasTable table := by
    simp [HasTable]
  simp only [List.mem_filterMap, List.mem_filter, hhas, decide_eq_true_eq]
  constructor
  · rintro ⟨table, ⟨htable, hne⟩, hfound⟩
    obtain ⟨rfl, hwithin⟩ := (relatedTable?_eq_some_iff (contains_ofNames hkeys.hasTable)
      (contains_ofNames htable)).mp hfound
    exact ⟨hne, htable, hwithin⟩
  · rintro ⟨hne, htable, hwithin⟩
    exact ⟨_, ⟨htable, hne⟩, (relatedTable?_eq_some_iff (contains_ofNames hkeys.hasTable)
      (contains_ofNames htable)).mpr ⟨rfl, hwithin⟩⟩

/-- **Which tables are related** to one that has foreign keys: those whose distance is within the
bound. So a smaller bound takes away what is beyond it, and no other table is within none. -/
theorem relatedTables_assemble (columns : List ListedColumn) (keys : List Relationship)
    (source : TableRef) (maxJoins : Option Nat) (hkeys : (assemble columns keys).HasKeys source) :
    ∃ related, (assemble columns keys).relatedTables source maxJoins = .ok related ∧
      (assemble columns keys).RelatedWithin source maxJoins related ∧
      (∀ fewer, (∀ most ∈ maxJoins, fewer ≤ most) →
        (assemble columns keys).relatedTables source (some fewer) =
          .ok (related.filter (·.joins ≤ fewer))) ∧
      (assemble columns keys).relatedTables source (some 0) = .ok [] := by
  have hu := unambiguous_assemble columns keys
  have hfound := hu.relatedTables_eq hkeys
  refine ⟨_, hfound maxJoins, hu.relatedWithin hkeys (hfound maxJoins), fun fewer h => ?_, ?_⟩
  · rw [hfound, List.filter_filterMap]
    exact congrArg (fun make? => Except.ok (List.filterMap make? _))
      (funext fun table => relatedTable?_of_fewer _ h)
  · have hnone := (hu.relatedWithin hkeys (hfound (some 0))).mem_iff
    rw [hfound, Except.ok.injEq, List.eq_nil_iff_forall_not_mem]
    intro entry hentry
    obtain ⟨hne, -, hdistance, hwithin⟩ := (hnone entry).mp hentry
    exact absurd (hwithin 0 rfl) (Nat.not_le.mpr (hdistance.1.pos hne))

end Catalog

/-- One join leads from customers to their orders. -/
theorem relatedTables_shop :
    shop.HasKeys ⟨"shop", "customers"⟩ ∧
    ∃ related, shop.relatedTables ⟨"shop", "customers"⟩ (some 1) = .ok related ∧
      ⟨⟨"shop", "orders"⟩, 1⟩ ∈ related := by
  have hkeys : shop.HasKeys ⟨"shop", "customers"⟩ := by
    refine ⟨_, Catalog.lists_assemble_iff.mpr
      ⟨⟨⟨"shop", "customers"⟩, "id", "integer", .number, false, true⟩, by decide, rfl, rfl⟩, ?_⟩
    decide
  have horders : shop.HasTable ⟨"shop", "orders"⟩ :=
    (Catalog.hasColumn_assemble_iff.mpr
      ⟨⟨⟨"shop", "orders"⟩, "id", "integer", .number, false, true⟩, by decide, rfl, rfl⟩).hasTable
  have hne : (⟨"shop", "orders"⟩ : TableRef) ≠ ⟨"shop", "customers"⟩ := by decide
  have hadjacent : (JoinGraph.ofNames shop []).Adjacent ⟨"shop", "customers"⟩ ⟨"shop", "orders"⟩ :=
    JoinGraph.adjacent_ofCatalog_iff.mpr ⟨JoinGraph.mem_tables_ofCatalog.mpr
      ⟨hkeys.hasTable, List.not_mem_nil⟩, JoinGraph.mem_tables_ofCatalog.mpr
      ⟨horders, List.not_mem_nil⟩, by decide⟩
  have hdistance : (JoinGraph.ofNames shop []).Distance ⟨"shop", "customers"⟩
      ⟨"shop", "orders"⟩ 1 := ⟨.step .stay hadjacent, fun _ hwalk => hwalk.pos hne⟩
  obtain ⟨related, hrelated, hwithin, -⟩ :=
    Catalog.relatedTables_assemble shopColumns shopKeys ⟨"shop", "customers"⟩ (some 1) hkeys
  exact ⟨hkeys, related, hrelated, (hwithin.mem_iff _).mpr ⟨hne, horders, hdistance, by simp⟩⟩

end JoinPlan
