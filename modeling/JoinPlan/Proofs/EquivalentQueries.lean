import JoinPlan.Proofs.Compilable
import JoinPlan.Query.Equivalence

/-!
# Equivalent queries compile alike

Whether two queries are equivalent is decided from selections that are expanded without a look at
the columns they list, while a query is compiled from selections that are checked. The two agree
because a check only depends on the table and on the expanded list, and because the full list of a
table's columns always passes.

So joins that are equivalent differ in nothing that compiling them looks at. The same holds of joins
in which some of the selections of all columns are written out, whether or not all the others can be
expanded.

## Main definitions

* `Join.Alike`: two joins differ in nothing that compiling them looks at.
* `Join.WrittenOut`: some of the selections of all columns are written out.
* `Prepared.SameButLimit`: two compiled queries only differ in their limits.

## Main results

* `Join.alike_of_equivalent`, `Join.WrittenOut.alike`: which joins are alike.
* `Join.Alike.agree_placedFrom`: joins that are alike have the same places.
* `Join.Alike.normalize_eq`: they have the same canonical tree.
* `Query.prepare_of_equivalent`: equivalent queries compile alike.
-/

namespace JoinPlan

variable {catalog : Catalog} {a b : Join}

/-! ### Selections -/

/-- The join with its columns listed. -/
def Join.listing (join : Join) (names : List String) : Join :=
  { join with select := .columns names }

/-- Listing the columns that a selection stands for changes nothing, not even what is missing. -/
theorem Join.checkedSelect_listing {join : Join} {names : List String}
    (h : join.expandedSelect catalog = .ok names) :
    (join.listing names).checkedSelect catalog = join.checkedSelect catalog := by
  rw [expandedSelect] at h
  split at h
  · rename_i hselect
    obtain ⟨table, htable, rfl⟩ := map_eq_ok_iff.mp h
    have hall : table.columnNames.find? (!table.hasColumn ·) = none := by
      simp [Table.hasColumn_iff]
    simp only [checkedSelect, listing, htable, hselect, ok_bind_eq, hall]
  · rename_i hselect
    cases h
    simp only [checkedSelect, listing, hselect]

theorem Join.checkedSelect_eq (htable : a.table = b.table) {names : List String}
    (ha : a.expandedSelect catalog = .ok names) (hb : b.expandedSelect catalog = .ok names) :
    a.checkedSelect catalog = b.checkedSelect catalog := by
  rw [← checkedSelect_listing ha, ← checkedSelect_listing hb]
  simp only [checkedSelect, listing, htable]

/-! ### Joins that are alike -/

/-- Two joins differ in nothing that compiling them looks at: their selections come to the same
columns, or fail in the same way, and so it is with their children one by one. -/
inductive Join.Alike (catalog : Catalog) : Join → Join → Prop
  | intro {a b : Join} (table : a.table = b.table) (via : a.via = b.via)
      (condition : a.condition = b.condition) (orderBy : a.orderBy = b.orderBy)
      (select : a.checkedSelect catalog = b.checkedSelect catalog)
      (joins : List.Forall₂ (Join.Alike catalog) a.joins b.joins) : Join.Alike catalog a b

theorem Join.sameNode_iff : a.sameNode b = true ↔ a.table = b.table ∧ a.via = b.via ∧
    a.condition = b.condition ∧ a.orderBy = b.orderBy ∧ a.joins.length = b.joins.length := by
  simp only [sameNode, Bool.and_eq_true, decide_eq_true_eq, and_assoc]

mutual

/-- **Equivalent joins are alike.** -/
theorem Join.alike_of_equivalent : ∀ {a b : Join}, a.equivalent catalog b = .ok true →
    a.Alike catalog b
  | ⟨_, _, _, _, _, as⟩, ⟨_, _, _, _, _, bs⟩, h => by
    rw [equivalent] at h
    split_ifs at h with hsame
    · obtain ⟨htable, hvia, hcondition, horderBy, hlength⟩ := sameNode_iff.mp hsame
      obtain ⟨selectA, hA, h⟩ := bind_eq_ok_iff.mp h
      obtain ⟨selectB, hB, h⟩ := bind_eq_ok_iff.mp h
      split_ifs at h with hselect
      · subst hselect
        exact .intro htable hvia hcondition horderBy (checkedSelect_eq htable hA hB)
          (Join.forall₂_alike_of_allEquivalent hlength h)
      · cases h
    · cases h

theorem Join.forall₂_alike_of_allEquivalent : ∀ {as bs : List Join}, as.length = bs.length →
    Join.allEquivalent catalog as bs = .ok true → List.Forall₂ (Join.Alike catalog) as bs
  | [], [], _, _ => .nil
  | a :: as, b :: bs, hlength, h => by
    rw [allEquivalent] at h
    obtain ⟨first, hfirst, h⟩ := bind_eq_ok_iff.mp h
    split_ifs at h with htrue
    · subst htrue
      exact .cons (Join.alike_of_equivalent hfirst)
        (Join.forall₂_alike_of_allEquivalent (Nat.succ.inj hlength) h)
    · cases h

end

/-! ### Selections that are written out -/

/-- A selection on a table is kept, or lists the columns of the table where all were selected. -/
inductive Selection.WrittenOut (catalog : Catalog) (ref : TableRef) : Selection → Selection → Prop
  | kept (select : Selection) : Selection.WrittenOut catalog ref select select
  | listed {table : Table} (h : catalog.findTable ref = .ok table) :
      Selection.WrittenOut catalog ref .all (.columns table.columnNames)

/-- Some of the selections of all columns are written out, and nothing else is different. -/
inductive Join.WrittenOut (catalog : Catalog) : Join → Join → Prop
  | intro {a b : Join} (table : a.table = b.table) (via : a.via = b.via)
      (condition : a.condition = b.condition) (orderBy : a.orderBy = b.orderBy)
      (select : a.select.WrittenOut catalog a.table b.select)
      (joins : List.Forall₂ (Join.WrittenOut catalog) a.joins b.joins) :
      Join.WrittenOut catalog a b

theorem Join.checkedSelect_of_writtenOut (htable : a.table = b.table)
    (h : a.select.WrittenOut catalog a.table b.select) :
    a.checkedSelect catalog = b.checkedSelect catalog := by
  generalize ha : a.select = selectA at h
  generalize hb : b.select = selectB at h
  cases h with
  | kept => simp only [checkedSelect, htable, ha, hb]
  | @listed table hfound =>
    have hA : a.expandedSelect catalog = .ok table.columnNames := by
      simp only [expandedSelect, ha, hfound, Except.map]
    have hB : b.expandedSelect catalog = .ok table.columnNames := by
      simp only [expandedSelect, hb]
    exact checkedSelect_eq htable hA hB

mutual

/-- **Joins stay alike when selections are written out.** -/
theorem Join.WrittenOut.alike : ∀ {a b : Join}, a.WrittenOut catalog b → a.Alike catalog b
  | ⟨_, _, _, _, _, _⟩, ⟨_, _, _, _, _, _⟩, .intro table via condition orderBy select joins =>
    .intro table via condition orderBy (Join.checkedSelect_of_writtenOut table select)
      (Join.WrittenOut.forall₂_alike joins)

theorem Join.WrittenOut.forall₂_alike : ∀ {as bs : List Join},
    List.Forall₂ (Join.WrittenOut catalog) as bs → List.Forall₂ (Join.Alike catalog) as bs
  | _, _, .nil => .nil
  | _, _, .cons first rest => .cons first.alike (Join.WrittenOut.forall₂_alike rest)

end

/-! ### Places -/

/-- Two joins that are alike, in the same place. -/
structure AuthoredJoin.Alike (catalog : Catalog) (a b : AuthoredJoin) : Prop where
  join : a.join.Alike catalog b.join
  trail : a.trail = b.trail
  ancestors : a.ancestors = b.ancestors

/-- What two joins stand below: nothing, or joins at one position that are alike. -/
def AlikeAbove (catalog : Catalog) (above above' : Option (Nat × AuthoredJoin)) : Prop :=
  Option.Rel (fun p q => p.1 = q.1 ∧ p.2.Alike catalog q.2) above above'

namespace Join.Alike

theorem table (h : a.Alike catalog b) : a.table = b.table := by
  cases h with
  | intro htable => exact htable

theorem select (h : a.Alike catalog b) : a.checkedSelect catalog = b.checkedSelect catalog := by
  cases h with
  | intro _ _ _ _ hselect => exact hselect

theorem checkSiblings_eq {as bs : List Join} (h : List.Forall₂ (Join.Alike catalog) as bs)
    (trail : List TableRef) : checkSiblings trail as = checkSiblings trail bs := by
  rw [checkSiblings, checkSiblings, map_eq_map_of_forall₂ h fun _ _ halike => halike.table]

variable {P : Type} [Penalty P] {graph : JoinGraph P} {above above' : Option (Nat × AuthoredJoin)}

variable (graph) in
theorem agree_place (h : a.Alike catalog b) (habove : AlikeAbove catalog above above') :
    AgreeUpTo (AuthoredJoin.Alike catalog) (a.place graph above) (b.place graph above') := by
  have hself := h
  obtain ⟨htable, hvia, -, -, -, -⟩ := h
  cases habove with
  | none => exact .ok ⟨hself, by rw [htable], rfl⟩
  | some hparents =>
    obtain ⟨hposition, hjoin, htrail, hancestors⟩ := hparents
    rw [place, place, htable, hvia, hjoin.table]
    refine .bind_same fun route => .ok ⟨hself, ?_, ?_⟩
    · rw [htrail]
    · rw [hposition, hancestors]

mutual

/-- **Joins that are alike have the same places**, or none for the same reason. -/
theorem agree_placedFrom {above above' : Option (Nat × AuthoredJoin)} (position : Nat)
    (habove : AlikeAbove catalog above above') : ∀ {a b : Join}, a.Alike catalog b →
    AgreeUpTo (List.Forall₂ (AuthoredJoin.Alike catalog))
      (a.placedFrom catalog graph above position) (b.placedFrom catalog graph above' position)
  | ⟨_, _, _, _, _, _⟩, ⟨_, _, _, _, _, _⟩, .intro table via condition orderBy select joins => by
    have hplace := agree_place graph (.intro table via condition orderBy select joins) habove
    rw [placedFrom_eq, placedFrom_eq, table]
    refine .bind_same fun _ => hplace.bind fun p q hentries => ?_
    rw [hentries.trail, checkSiblings_eq joins]
    have hparents : AlikeAbove catalog (some (position, p)) (some (position, q)) :=
      .some ⟨rfl, hentries⟩
    refine .bind_same fun _ => ?_
    refine (agree_placedAll (position + 1) hparents joins).bind fun _ _ hbelow => ?_
    exact .ok (.cons hentries hbelow)

theorem agree_placedAll {above above' : Option (Nat × AuthoredJoin)} (position : Nat)
    (habove : AlikeAbove catalog above above') : ∀ {as bs : List Join},
    List.Forall₂ (Join.Alike catalog) as bs → AgreeUpTo (List.Forall₂ (AuthoredJoin.Alike catalog))
      (Join.placedAll catalog graph above position as)
      (Join.placedAll catalog graph above' position bs)
  | _, _, .nil => .ok .nil
  | _, _, .cons first rest => by
    rw [placedAll, placedAll]
    refine (agree_placedFrom position habove first).bind fun _ _ hfirst => ?_
    rw [hfirst.length_eq]
    refine (agree_placedAll _ habove rest).bind fun _ _ hothers => ?_
    exact .ok (List.rel_append hfirst hothers)

end

end Join.Alike

/-! ### Canonical trees -/

namespace JoinTree

variable {placed placed' : List AuthoredJoin}

theorem pushAuthored_eq {entry entry' : AuthoredJoin} (h : entry.Alike catalog entry')
    (tree : JoinTree) (select : List String) :
    tree.pushAuthored entry select = tree.pushAuthored entry' select := by
  obtain ⟨⟨htable, hvia, hcondition, horderBy, -, -⟩, htrail, -⟩ := h
  rw [pushAuthored, pushAuthored, htable, hvia, hcondition, horderBy, htrail]

theorem unattached_eq (h : List.Forall₂ (AuthoredJoin.Alike catalog) placed placed')
    (selects : List (List String)) : unattached placed selects = unattached placed' selects := by
  rw [unattached, unattached]
  generalize (⟨[]⟩ : JoinTree) = tree
  induction h generalizing tree selects with
  | nil => rfl
  | cons hfirst _ ih =>
    cases selects with
    | nil => rfl
    | cons select rest =>
      rw [List.zip_cons_cons, List.zip_cons_cons, List.foldl_cons, List.foldl_cons,
        pushAuthored_eq hfirst, ih]

theorem attachAll_eq (h : List.Forall₂ (AuthoredJoin.Alike catalog) placed placed')
    (tree : JoinTree) (position : Nat) :
    tree.attachAll position placed = tree.attachAll position placed' := by
  induction h generalizing tree position with
  | nil => rfl
  | cons hfirst _ ih =>
    rw [attachAll, attachAll, attach, attach, hfirst.ancestors, hfirst.trail, ih]

theorem ofPlaced_eq (h : List.Forall₂ (AuthoredJoin.Alike catalog) placed placed')
    (selects : List (List String)) : ofPlaced placed selects = ofPlaced placed' selects := by
  rw [ofPlaced, ofPlaced, unattached_eq h, attachAll_eq h]

end JoinTree

/-- **Joins that are alike have the same canonical tree**, or none for the same reason. -/
theorem Join.Alike.normalize_eq {P : Type} [Penalty P] {graph : JoinGraph P}
    (h : a.Alike catalog b) : a.normalize catalog graph = b.normalize catalog graph := by
  rw [normalize, normalize, h.table]
  refine bind_congr fun _ => (h.agree_placedFrom 0 .none).bind_eq fun placed placed' hentries => ?_
  have hselects : placed.mapM (fun entry => entry.join.checkedSelect catalog) =
      placed'.mapM fun entry => entry.join.checkedSelect catalog :=
    mapM_eq_mapM_of_forall₂ hentries fun _ _ hentry => hentry.join.select
  rw [hselects]
  refine bind_congr fun selects => ?_
  rw [JoinTree.ofPlaced_eq hentries]

/-! ### Queries -/

/-- Two compiled queries only differ in their limits. -/
structure Prepared.SameButLimit (p q : Prepared) : Prop where
  sql : p.sql = q.sql
  tree : p.tree = q.tree
  joinsList : p.joinsList = q.joinsList

/-- A limit is stored, and nothing else is done with it. -/
theorem Query.agree_prepare {a b : Query} (h : a.base.Alike catalog b.base) :
    AgreeUpTo Prepared.SameButLimit (a.prepare catalog) (b.prepare catalog) := by
  rw [prepare, prepare, h.normalize_eq]
  exact .bind_same fun tree => .bind_same fun statement => .ok ⟨rfl, rfl, rfl⟩

/-- **Equivalent queries compile alike**: to the same statement, the same tree and the same list of
joins, or they fail with the same error. Writing out selections of all columns changes nothing. -/
theorem Query.prepare_of_equivalent (catalog : Catalog) (a b : Query) :
    (a.equivalent catalog b = .ok true →
      AgreeUpTo Prepared.SameButLimit (a.prepare catalog) (b.prepare catalog)) ∧
    (a.base.WrittenOut catalog b.base → a.limit = b.limit →
      a.prepare catalog = b.prepare catalog) := by
  refine ⟨fun h => agree_prepare (Join.alike_of_equivalent h), fun h hlimit => ?_⟩
  rw [prepare, prepare, h.alike.normalize_eq, hlimit]

/-- The parcels of some customers with their only column listed, at most so many. -/
def listedParcelsOfSome (ids : List String) (limit : Option Nat) : Query :=
  ⟨⟨⟨"shop", "customers"⟩, [], .columns ["id"], some (.membership "id" .among ids), [],
    [⟨⟨"shop", "parcels"⟩, [], .columns ["order"], none, [⟨"order", .ascending, none⟩], []⟩]⟩,
    limit⟩

theorem writtenOut_parcelsOfSome (ids : List String) (limit : Option Nat) :
    (parcelsOfSome ids).base.WrittenOut shop (listedParcelsOfSome ids limit).base := by
  have hparcels : ∃ table, shop.findTable ⟨"shop", "parcels"⟩ = .ok table ∧
      table.columnNames = ["order"] :=
    map_eq_ok_iff.mp (by decide +kernel)
  obtain ⟨table, htable, hnames⟩ := hparcels
  have hlisted : Selection.WrittenOut shop ⟨"shop", "parcels"⟩ .all (.columns ["order"]) :=
    hnames ▸ .listed htable
  exact .intro rfl rfl rfl rfl (.kept _) (.cons (.intro rfl rfl rfl rfl hlisted .nil) .nil)

theorem prepare_listedParcelsOfSome :
    (parcelsOfSome ["1", "2"]).equivalent shop (listedParcelsOfSome ["1", "2"] (some 5)) =
        .ok true ∧
      (∃ p q, (parcelsOfSome ["1", "2"]).prepare shop = .ok p ∧
        (listedParcelsOfSome ["1", "2"] (some 5)).prepare shop = .ok q ∧ p.SameButLimit q) ∧
      (parcelsOfSome ["1", "2"]).prepare shop =
        (listedParcelsOfSome ["1", "2"] none).prepare shop := by
  have hequivalent : (parcelsOfSome ["1", "2"]).equivalent shop
      (listedParcelsOfSome ["1", "2"] (some 5)) = .ok true := by
    decide +kernel
  refine ⟨hequivalent, ?_, (Query.prepare_of_equivalent shop _ _).2
    (writtenOut_parcelsOfSome ["1", "2"] none) rfl⟩
  obtain ⟨p, hp⟩ := exists_prepared_parcelsOfSome ["1", "2"]
  have hagree := (Query.prepare_of_equivalent shop _ _).1 hequivalent
  rw [hp] at hagree
  generalize hq : (listedParcelsOfSome ["1", "2"] (some 5)).prepare shop = outcome at hagree
  cases hagree with
  | ok hsame => exact ⟨p, _, hp, rfl, hsame⟩

end JoinPlan
