import JoinPlan.Proofs.Adjacency
import JoinPlan.Proofs.ListedColumns
import JoinPlan.Proofs.Outcome
import JoinPlan.Sql.Keys

/-!
# Keys recorded at both ends

The graph of a catalog is built from outbound and inbound keys alike, but only outbound keys say
which columns to equate. So tables that the graph links can be joined only if every inbound key has
an outbound counterpart.

It has one in an assembled catalog if the columns that refer were reported, and leaving tables out
drops both or none.

## Main definitions

* `Catalog.RefersTo`, `Catalog.ReferredFrom`: outbound and inbound keys between tables.
* `Catalog.Mirrored`: every inbound key has an outbound counterpart.
* `Catalog.Joinable`: some columns of two tables can be equated.

## Main results

* `Catalog.mirrored_assemble`, `Catalog.Mirrored.without`: keys are recorded at both ends.
* `Catalog.joinable_of_adjacent`: adjacent tables can be joined.
-/

namespace JoinPlan

namespace Catalog

variable {P : Type} {catalog : Catalog} {a b : TableRef} {columns : List ListedColumn}
  {keys : List Relationship} {ignored : List TableRef}

/-- The first table has a key that leads to the second. -/
def RefersTo (catalog : Catalog) (a b : TableRef) : Prop :=
  ∃ column, catalog.Lists a column ∧ ∃ key ∈ column.outbound, key.foreignTable = b

/-- The first table records a key that comes from the second. -/
def ReferredFrom (catalog : Catalog) (a b : TableRef) : Prop :=
  ∃ column, catalog.Lists a column ∧ ∃ key ∈ column.inbound, key.localTable = b

/-- A key that is recorded where it leads is recorded where it comes from. -/
def Mirrored (catalog : Catalog) : Prop :=
  ∀ a b, catalog.ReferredFrom a b → catalog.RefersTo b a

theorem mem_keyEnds_iff_refers :
    (a, b) ∈ JoinGraph.keyEnds catalog ↔ catalog.RefersTo a b ∨ catalog.ReferredFrom a b := by
  simp only [JoinGraph.mem_keyEnds_iff, Table.linkedTables, Column.linkedTables, List.mem_flatMap,
    List.mem_append, List.mem_map, RefersTo, ReferredFrom, lists_iff]
  constructor
  · rintro ⟨table, htable, column, hcolumn, hout | hin⟩
    · exact .inl ⟨column, ⟨table, htable, hcolumn⟩, hout⟩
    · exact .inr ⟨column, ⟨table, htable, hcolumn⟩, hin⟩
  · rintro (⟨column, ⟨table, htable, hcolumn⟩, hout⟩ | ⟨column, ⟨table, htable, hcolumn⟩, hin⟩)
    · exact ⟨table, htable, column, hcolumn, .inl hout⟩
    · exact ⟨table, htable, column, hcolumn, .inr hin⟩

/-! ### Assembled catalogs -/

theorem refersTo_assemble_iff :
    (assemble columns keys).RefersTo a b ↔
      ∃ column ∈ columns, ∃ key ∈ keys, column.table = a ∧ key.localTable = a ∧
        key.localColumn = column.name ∧ key.foreignTable = b := by
  simp only [RefersTo, lists_assemble_iff]
  constructor
  · rintro ⟨_, ⟨column, hcolumn, rfl, rfl⟩, _, hkey, rfl⟩
    obtain ⟨key, hfiltered, rfl⟩ := List.mem_map.mp hkey
    obtain ⟨hmem, hends⟩ := List.mem_filter.mp hfiltered
    rw [Bool.and_eq_true, decide_eq_true_eq, decide_eq_true_eq] at hends
    exact ⟨column, hcolumn, key, hmem, rfl, hends.1, hends.2, rfl⟩
  · rintro ⟨column, hcolumn, key, hkey, rfl, htable, hname, rfl⟩
    refine ⟨_, ⟨column, hcolumn, rfl, rfl⟩, key.outboundKey, ?_, rfl⟩
    refine List.mem_map_of_mem (List.mem_filter.mpr ⟨hkey, ?_⟩)
    rw [Bool.and_eq_true, decide_eq_true_eq, decide_eq_true_eq]
    exact ⟨htable, hname⟩

theorem exists_key_of_referredFrom_assemble (h : (assemble columns keys).ReferredFrom a b) :
    ∃ key ∈ keys, key.foreignTable = a ∧ key.localTable = b := by
  obtain ⟨_, hlisted, _, hkey, rfl⟩ := h
  obtain ⟨column, -, rfl, rfl⟩ := lists_assemble_iff.mp hlisted
  obtain ⟨key, hfiltered, rfl⟩ := List.mem_map.mp hkey
  obtain ⟨hmem, hends⟩ := List.mem_filter.mp hfiltered
  rw [Bool.and_eq_true, decide_eq_true_eq] at hends
  exact ⟨key, hmem, hends.1, rfl⟩

/-- **Assembled keys are recorded at both ends**, if the columns that refer are reported. The
columns they refer to need not be. -/
theorem mirrored_assemble (hkeys : ∀ key ∈ keys, ∃ column ∈ columns,
    column.table = key.localTable ∧ column.name = key.localColumn) :
    (assemble columns keys).Mirrored := by
  intro a b h
  obtain ⟨key, hkey, rfl, rfl⟩ := exists_key_of_referredFrom_assemble h
  obtain ⟨column, hcolumn, htable, hname⟩ := hkeys key hkey
  exact refersTo_assemble_iff.mpr ⟨column, hcolumn, key, hkey, htable, rfl, hname.symm, rfl⟩

/-! ### Leaving tables out -/

theorem refersTo_without_iff :
    (catalog.without ignored).RefersTo a b ↔ a ∉ ignored ∧ b ∉ ignored ∧ catalog.RefersTo a b := by
  simp only [RefersTo, lists_without_iff]
  constructor
  · rintro ⟨_, ⟨hout, column, hlisted, rfl⟩, key, hkey, rfl⟩
    obtain ⟨hkey, hkept⟩ := List.mem_filter.mp hkey
    exact ⟨hout, by simpa using hkept, column, hlisted, key, hkey, rfl⟩
  · rintro ⟨hout, hout', column, hlisted, key, hkey, rfl⟩
    exact ⟨_, ⟨hout, column, hlisted, rfl⟩, key,
      List.mem_filter.mpr ⟨hkey, by simpa using hout'⟩, rfl⟩

theorem referredFrom_without_iff :
    (catalog.without ignored).ReferredFrom a b ↔
      a ∉ ignored ∧ b ∉ ignored ∧ catalog.ReferredFrom a b := by
  simp only [ReferredFrom, lists_without_iff]
  constructor
  · rintro ⟨_, ⟨hout, column, hlisted, rfl⟩, key, hkey, rfl⟩
    obtain ⟨hkey, hkept⟩ := List.mem_filter.mp hkey
    exact ⟨hout, by simpa using hkept, column, hlisted, key, hkey, rfl⟩
  · rintro ⟨hout, hout', column, hlisted, key, hkey, rfl⟩
    exact ⟨_, ⟨hout, column, hlisted, rfl⟩, key,
      List.mem_filter.mpr ⟨hkey, by simpa using hout'⟩, rfl⟩

theorem Mirrored.without (h : catalog.Mirrored) (ignored : List TableRef) :
    (catalog.without ignored).Mirrored := by
  intro a b hfrom
  obtain ⟨ha, hb, hfrom⟩ := referredFrom_without_iff.mp hfrom
  exact refersTo_without_iff.mpr ⟨hb, ha, h a b hfrom⟩

/-! ### Joining adjacent tables -/

theorem Unambiguous.keyTo?_isSome (h : catalog.Unambiguous) {table : Table}
    (htable : catalog.findTable a = .ok table) (hrefers : catalog.RefersTo a b) :
    (table.keyTo? b).isSome = true := by
  obtain ⟨column, hlisted, key, hkey, hleads⟩ := hrefers
  have hcolumn := (h.lists_iff_mem htable).mp hlisted
  exact (Table.keyTo?_isSome _ _).mpr ⟨column, hcolumn, key, hkey, hleads⟩

/-- There are columns of the two tables to equate, whatever the tables are called. -/
def Joinable (catalog : Catalog) (parent child : TableRef) : Prop :=
  ∀ parentName childName, ∃ equation,
    catalog.equate parent parentName child childName = .ok equation

/-- A key from either side joins two tables. -/
theorem joinable_of_keyTo? {parent child : Table} (hparent : catalog.findTable a = .ok parent)
    (hchild : catalog.findTable b = .ok child)
    (h : (parent.keyTo? b).isSome = true ∨ (child.keyTo? a).isSome = true) :
    catalog.Joinable a b := by
  intro parentName childName
  simp only [equate, hparent, hchild, bind, Except.bind]
  cases hkey : parent.keyTo? b with
  | some found => exact ⟨_, rfl⟩
  | none =>
    cases hkey' : child.keyTo? a with
    | some found => exact ⟨_, rfl⟩
    | none => simp [hkey, hkey'] at h

/-- Whether two tables can be joined does not depend on what they are called. -/
theorem joinable_of_equate {parentName childName : String} {on : Equation}
    (h : catalog.equate a parentName b childName = .ok on) : catalog.Joinable a b := by
  intro parentName' childName'
  obtain ⟨parent, hparent, h⟩ := bind_eq_ok_iff.mp h
  simp only [equate, hparent, ok_bind_eq]
  cases hkey : parent.keyTo? b with
  | some found => exact ⟨_, rfl⟩
  | none =>
    rw [hkey] at h
    obtain ⟨child, hchild, h⟩ := bind_eq_ok_iff.mp h
    simp only [hchild, ok_bind_eq]
    cases hkey' : child.keyTo? a with
    | some found => exact ⟨_, rfl⟩
    | none =>
      rw [hkey'] at h
      cases h

/-- **Adjacent tables can be joined** where names stay apart and keys are recorded at both ends. -/
theorem joinable_of_adjacent (hu : catalog.Unambiguous) (hm : catalog.Mirrored)
    {penalty : TableRef → TableRef → P} {left : List TableRef}
    (h : (JoinGraph.ofCatalog penalty catalog left).Adjacent a b) : catalog.Joinable a b := by
  obtain ⟨ha, hb, hends⟩ := JoinGraph.adjacent_ofCatalog_iff.mp h
  obtain ⟨⟨parent, hparent⟩, -⟩ := JoinGraph.mem_tables_ofCatalog.mp ha
  obtain ⟨⟨child, hchild⟩, -⟩ := JoinGraph.mem_tables_ofCatalog.mp hb
  have hrefers : catalog.RefersTo a b ∨ catalog.RefersTo b a := by
    rw [mem_keyEnds_iff_refers, mem_keyEnds_iff_refers] at hends
    rcases hends with (hab | hab) | (hba | hba)
    · exact .inl hab
    · exact .inr (hm a b hab)
    · exact .inr hba
    · exact .inl (hm b a hba)
  have hparent := hu.findTable_eq_ok hparent
  have hchild := hu.findTable_eq_ok hchild
  exact joinable_of_keyTo? hparent hchild
    (hrefers.imp (hu.keyTo?_isSome hparent) (hu.keyTo?_isSome hchild))

end Catalog

end JoinPlan
