import JoinPlan.Execution.Run
import JoinPlan.Proofs.CanonicalTree
import JoinPlan.Proofs.MirroredKeys
import JoinPlan.Proofs.Refusals
import JoinPlan.Proofs.RouteLegs

/-!
# No foreign key is ever missing

Of all errors only one says that the catalog contradicts itself: two tables are linked in the graph,
but neither has a foreign key to the other. It can come from equating two tables and from nothing
else, and whatever is equated is adjacent: a join and its child in a canonical tree, or two tables
that follow one another on a path.

## Main definitions

* `QueryError.IsOther`: an error that does not say that a foreign key is missing.
* `Catalog.HasEveryKey`: no request over the catalog ends with that error.

## Main results

* `Query.failsWith_prepare`, `Catalog.failsWith_relatedRows`: such are all errors over a catalog
  whose names stay apart and whose keys are recorded at both ends.
* `Catalog.hasEveryKey_assemble`: assembled catalogs are like that, also with tables left out.
-/

namespace JoinPlan

/-- The error does not say that a foreign key is missing. -/
def QueryError.IsOther : QueryError → Prop
  | .noDirectForeignKey _ _ => False
  | _ => True

open QueryError (IsOther)

theorem isOther_of_isPlain (e : QueryError) (h : e.IsPlain) : IsOther e := by
  cases e <;> trivial

section

variable {P : Type} [Penalty P] {catalog : Catalog} {graph : JoinGraph P}

/-! ### Places -/

theorem JoinGraph.failsWith_resolveRoute (graph : JoinGraph P) (source target : TableRef)
    (via : List TableRef) : FailsWith IsOther (graph.resolveRoute source target via) := by
  rw [resolveRoute]
  split
  · exact .error trivial
  · split
    · exact .ok _
    · exact .error trivial

theorem Join.failsWith_place (graph : JoinGraph P) (parent : Option (Nat × AuthoredJoin))
    (join : Join) : FailsWith IsOther (join.place graph parent) := by
  cases parent with
  | none => exact .ok _
  | some parent => exact (graph.failsWith_resolveRoute _ _ _).bind fun _ _ => .ok _

mutual

theorem Join.failsWith_placedFrom {parent : Option (Nat × AuthoredJoin)} {position : Nat} :
    ∀ join : Join, FailsWith IsOther (join.placedFrom catalog graph parent position)
  | ⟨_, _, _, _, _, joins⟩ => by
    rw [placedFrom]
    refine (catalog.failsWith_findTable isOther_of_isPlain _).bind fun _ _ => ?_
    refine (failsWith_place graph parent _).bind fun placed _ => ?_
    refine (failsWith_checkSiblings isOther_of_isPlain _ _).bind fun _ _ => ?_
    exact (Join.failsWith_placedAll joins).bind fun _ _ => .ok _

theorem Join.failsWith_placedAll {parent : Option (Nat × AuthoredJoin)} {position : Nat} :
    ∀ joins : List Join, FailsWith IsOther (Join.placedAll catalog graph parent position joins)
  | [] => by
    rw [placedAll]
    exact .ok _
  | join :: rest => by
    rw [placedAll]
    refine (Join.failsWith_placedFrom join).bind fun _ _ => ?_
    exact (Join.failsWith_placedAll rest).bind fun _ _ => .ok _

end

theorem Join.failsWith_normalize (catalog : Catalog) (graph : JoinGraph P) (base : Join) :
    FailsWith IsOther (base.normalize catalog graph) := by
  refine (catalog.failsWith_findLinkedTable isOther_of_isPlain _).bind fun _ _ => ?_
  refine (Join.failsWith_placedFrom base).bind fun placed _ => ?_
  refine FailsWith.bind (.mapM fun entry _ => ?_) fun _ _ => .ok _
  exact entry.join.failsWith_checkedSelect isOther_of_isPlain catalog

/-! ### Statements -/

theorem Catalog.Joinable.failsWith_equate {parent child : TableRef}
    (h : catalog.Joinable parent child) (parentName childName : String) :
    FailsWith IsOther (catalog.equate parent parentName child childName) := by
  obtain ⟨equation, hequation⟩ := h parentName childName
  rw [hequation]
  exact .ok _

/-- A query is never refused for a missing key. -/
theorem Query.failsWith_prepare (hu : catalog.Unambiguous) (hm : catalog.Mirrored)
    (query : Query) : FailsWith IsOther (query.prepare catalog) := by
  refine (Join.failsWith_normalize _ _ _).bind fun tree htree => ?_
  obtain ⟨placed, authored, bridges, hbuilt⟩ := JoinTree.built_of_normalize htree
  refine FailsWith.bind (JoinTree.failsWith_statement isOther_of_isPlain ?_) fun _ _ => .ok _
  intro id node hnode child hchild below hbelow
  have hadjacent := (hbuilt.beyond_of_mem_children hnode hchild hbelow).2
  exact (Catalog.joinable_of_adjacent hu hm hadjacent).failsWith_equate _ _

/-! ### Related rows -/

theorem Catalog.failsWith_pathBeyond (catalog : Catalog) (source target : TableRef) :
    FailsWith IsOther (catalog.pathBeyond source target) := by
  rw [pathBeyond]
  split
  · exact .ok _
  · refine FailsWith.map ?_
    rw [JoinGraph.shortestPath]
    split
    · exact .ok _
    · exact .error trivial

/-- What comes after a table on a path is a leg of as few hops as there can be, also if the path
stays where it is. -/
theorem Catalog.shortLeg_of_pathBeyond {source target : TableRef} {path : List TableRef}
    (h : catalog.pathBeyond source target = .ok path) :
    (JoinGraph.ofNames catalog []).ShortLeg source target path := by
  rw [pathBeyond] at h
  split_ifs at h with hsame
  · cases h
    subst hsame
    exact ⟨rfl, List.isChain_singleton _, List.nodup_singleton _, .stay, fun _ _ => Nat.zero_le _⟩
  · obtain ⟨trail, htrail, rfl⟩ := map_eq_ok_iff.mp h
    refine JoinGraph.shortLeg_of_leg? hsame ?_
    rw [JoinGraph.leg?, if_neg hsame, JoinGraph.shortestPath_eq_ok_iff.mp htrail, Option.map_some]

/-- A request for related rows is never refused for a missing key. -/
theorem Catalog.failsWith_relatedRows (hu : catalog.Unambiguous) (hm : catalog.Mirrored)
    (localTable : TableRef) (row : Row) (foreignTable : TableRef) :
    FailsWith IsOther (catalog.relatedRows localTable row foreignTable) := by
  refine (catalog.failsWith_findLinkedTable isOther_of_isPlain _).bind fun table _ => ?_
  refine (catalog.failsWith_findTable isOther_of_isPlain _).bind fun _ _ => ?_
  refine (catalog.failsWith_pathBeyond _ _).bind fun path hpath => ?_
  have hchain := (shortLeg_of_pathBeyond hpath).chain.imp fun a b hadjacent =>
    (joinable_of_adjacent hu hm hadjacent).failsWith_equate a.text b.text
  refine (failsWith_joinPath hchain).bind fun _ _ => ?_
  exact (failsWith_rowFilters isOther_of_isPlain _ _ _).bind fun _ _ => .ok _

/-- Fetching related rows adds only the errors of the database. -/
theorem Catalog.failsWith_fetchRelated (hu : catalog.Unambiguous) (hm : catalog.Mirrored)
    {δ : Type} [Database δ]
    (hdb : ∀ (db : δ) request, FailsWith IsOther (Database.exec db request).1) (db : δ)
    (localTable : TableRef) (row : Row) (foreignTable : TableRef) :
    FailsWith IsOther (catalog.fetchRelated localTable row foreignTable db).1 := by
  have hcompiled := failsWith_relatedRows hu hm localTable row foreignTable
  rw [fetchRelated]
  cases hrows : catalog.relatedRows localTable row foreignTable with
  | error e => exact .error (hcompiled e hrows)
  | ok statement => exact (hdb db _).bind fun _ _ => .ok _

end

theorem ScriptedDatabase.failsWith_exec (db : ScriptedDatabase) (request : Request) :
    FailsWith IsOther (db.exec request).1 := by
  rw [exec]
  cases db.response with
  | some rows => exact .ok _
  | none => exact .error trivial

/-! ### Assembled catalogs -/

/-- No foreign key is ever missing. -/
structure Catalog.HasEveryKey (catalog : Catalog) : Prop where
  /-- No query is refused for a missing key. -/
  prepare : ∀ (query : Query) a b, query.prepare catalog ≠ .error (.noDirectForeignKey a b)
  /-- Nor is a request for related rows. -/
  relatedRows : ∀ localTable row foreignTable a b,
    catalog.relatedRows localTable row foreignTable ≠ .error (.noDirectForeignKey a b)
  /-- Nor does fetching them fail so, for a database has no such error of its own. -/
  fetchRelated : ∀ (δ : Type) [Database δ],
    (∀ (db : δ) request a b, (Database.exec db request).1 ≠ .error (.noDirectForeignKey a b)) →
    ∀ (db : δ) localTable row foreignTable a b,
      (catalog.fetchRelated localTable row foreignTable db).1 ≠ .error (.noDirectForeignKey a b)
  /-- Some key joins any two adjacent tables, whichever tables the graph leaves out. -/
  joinable : ∀ left a b, (JoinGraph.ofNames catalog left).Adjacent a b → catalog.Joinable a b

/-- **No foreign key is ever missing** from an assembled catalog, also with tables left out, if the
columns that refer were reported. -/
theorem Catalog.hasEveryKey_assemble (columns : List ListedColumn) (keys : List Relationship)
    (hkeys : ∀ key ∈ keys, ∃ column ∈ columns,
      column.table = key.localTable ∧ column.name = key.localColumn)
    (ignored : List TableRef) : ((assemble columns keys).without ignored).HasEveryKey := by
  have hu := (unambiguous_assemble columns keys).without ignored
  have hm := (mirrored_assemble hkeys).without ignored
  refine ⟨?_, ?_, ?_, ?_⟩
  · intro query a b h
    exact query.failsWith_prepare hu hm _ h
  · intro localTable row foreignTable a b h
    exact failsWith_relatedRows hu hm localTable row foreignTable _ h
  · intro δ _ hdb db localTable row foreignTable a b h
    have hother : ∀ (db : δ) request, FailsWith IsOther (Database.exec db request).1 := by
      intro db request e he
      cases e with
      | noDirectForeignKey a b => exact hdb db request a b he
      | _ => trivial
    exact failsWith_fetchRelated hu hm hother db localTable row foreignTable _ h
  · intro left a b h
    exact joinable_of_adjacent hu hm h

theorem hasEveryKey_shop :
    (∀ key ∈ shopKeys, ∃ column ∈ shopColumns,
      column.table = key.localTable ∧ column.name = key.localColumn) ∧
    (shop.without [⟨"shop", "parcels"⟩]).HasEveryKey ∧
    ∀ (db : ScriptedDatabase) localTable row foreignTable a b,
      ((shop.without [⟨"shop", "parcels"⟩]).fetchRelated localTable row foreignTable db).1 ≠
        .error (.noDirectForeignKey a b) := by
  have hkeys : ∀ key ∈ shopKeys, ∃ column ∈ shopColumns,
      column.table = key.localTable ∧ column.name = key.localColumn := by
    decide
  have hshop := Catalog.hasEveryKey_assemble shopColumns shopKeys hkeys [⟨"shop", "parcels"⟩]
  refine ⟨hkeys, hshop, hshop.fetchRelated ScriptedDatabase fun db request a b h => ?_⟩
  exact db.failsWith_exec request _ h

end JoinPlan
