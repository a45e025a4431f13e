import JoinPlan.Json.Record
import JoinPlan.Proofs.Outcome
import Mathlib.Data.List.Nodup

/-!
# Reading what was written

What is read from a record is decided by the first member of each field's name; where a member
stands only decides which of several failures is reported. So a record that is written member by
member, some of them left out, is read back field by field.

Two questions are asked of every reader: what holds of all that it reads, and what it reads back
from how that is written. Both are answered for a list, for a value that may be absent and for a
field by their answers for the parts.

## Main definitions

* `Json.Yields`: what holds of all that a reader reads.
* `Json.ReadsBack`: a reader reads values back from how they are written.

## Main results

* `Json.Members.ofPairs_eq_self`, `Json.Members.map_get?_names`: objects without repeated names.
* `Json.collapse_arr`, `Json.collapse_obj`: values that settling repeated names does not change.
* `Record.read_eq_ok_iff`: when a record is read.
* `Record.required_eq_done_iff`, `Record.withDefault_eq_done_iff`: when a field is read.
* `Record.read_obj`: an object with some of the fields, in their order, is a record.
* `Json.ReadsBack.required`, `Json.ReadsBack.listField`, `Json.ReadsBack.optionField`: fields are
  read back, also those that are left out where there is nothing to write.
-/

namespace JoinPlan

namespace Json

variable {α : Type} {p : α → Prop} {encode : α → Json} {read : Json → Except ReadError α}

/-! ### Members -/

namespace Members

theorem get?_append (name : String) (a b : Members) :
    get? name (a ++ b) = (get? name a).or (get? name b) := by
  induction a with
  | nil => rfl
  | cons pair rest ih =>
    obtain ⟨key, value⟩ := pair
    rw [List.cons_append, get?, get?]
    split_ifs
    · rfl
    · exact ih

theorem get?_optional (name key : String) (encode : α → Json) (value : Option α) :
    get? name (value.toList.map fun value => (key, encode value)) =
      if key = name then value.map encode else none := by
  cases value <;> simp [get?]

theorem names_append (a b : Members) : names (a ++ b) = names a ++ names b :=
  List.map_append

theorem names_optional (key : String) (encode : α → Json) (value : Option α) :
    (names (value.toList.map fun value => (key, encode value))).Sublist [key] := by
  cases value with
  | none => exact List.nil_sublist _
  | some value => exact List.Sublist.refl _

/-! ### Members without repeated names -/

theorem insert_of_notMem {name : String} {members : Members} (h : name ∉ members.names)
    (value : Json) : insert name value members = members ++ [(name, value)] := by
  induction members with
  | nil => rfl
  | cons pair rest ih =>
    obtain ⟨key, old⟩ := pair
    rw [names, List.map_cons, List.mem_cons, not_or] at h
    rw [insert, if_neg (Ne.symm h.1), ih h.2, List.cons_append]

/-- Members of different names are kept as they are. -/
theorem ofPairs_eq_self {pairs : Members} (h : pairs.names.Nodup) : ofPairs pairs = pairs := by
  have hall : ∀ (pairs front : Members), (front ++ pairs).names.Nodup →
      pairs.foldl (fun members pair => insert pair.1 pair.2 members) front = front ++ pairs := by
    intro pairs
    induction pairs with
    | nil => simp
    | cons pair rest ih =>
      intro front hnodup
      have hnew : pair.1 ∉ front.names := by
        rw [names, List.map_append, List.map_cons] at hnodup
        exact fun hmem => List.disjoint_of_nodup_append hnodup hmem List.mem_cons_self
      rw [List.foldl_cons, insert_of_notMem hnew, ih _ (by simpa using hnodup)]
      simp
  exact hall pairs [] h

/-- A value is found under its name if no other member has it. -/
theorem get?_of_mem {members : Members} (h : members.names.Nodup) {name : String} {value : Json}
    (hmem : (name, value) ∈ members) : get? name members = some value := by
  induction members with
  | nil => cases hmem
  | cons pair rest ih =>
    obtain ⟨key, first⟩ := pair
    obtain ⟨hnew, hrest⟩ := List.nodup_cons.mp h
    rw [get?]
    rcases List.mem_cons.mp hmem with heq | hlater
    · cases heq
      rw [if_pos rfl]
    · have hne : key ≠ name := by
        rintro rfl
        exact hnew (List.mem_map.mpr ⟨_, hlater, rfl⟩)
      rw [if_neg hne, ih hrest hlater]

/-- Looking up all names gives back the members. -/
theorem map_get?_names {members : Members} (h : members.names.Nodup) :
    members.names.map (fun name => (name, (get? name members).getD .null)) = members := by
  rw [names, List.map_map]
  refine (List.map_congr_left fun pair hpair => ?_).trans (List.map_id members)
  rw [Function.comp, get?_of_mem h hpair, Option.getD_some, id]

end Members

/-! ### Values without repeated names -/

theorem collapseItems_eq (items : List Json) : collapseItems items = items.map collapse := by
  induction items with
  | nil => rfl
  | cons item rest ih => rw [collapseItems, ih, List.map_cons]

theorem collapseMembers_eq (members : Members) :
    collapseMembers members = members.map fun member => (member.1, member.2.collapse) := by
  induction members with
  | nil => rfl
  | cons member rest ih => rw [collapseMembers, ih, List.map_cons]

@[simp] theorem collapse_str (text : String) : (str text).collapse = str text := rfl

@[simp] theorem collapse_ofNat (value : Nat) : (ofNat value).collapse = ofNat value := rfl

theorem collapse_arr {items : List Json} (h : ∀ item ∈ items, item.collapse = item) :
    (arr items).collapse = arr items := by
  rw [collapse, collapseItems_eq, List.map_congr_left h, List.map_id']

theorem collapse_obj {members : Members} (hnames : members.names.Nodup)
    (h : ∀ member ∈ members, member.2.collapse = member.2) :
    (obj members).collapse = obj members := by
  have hsame : collapseMembers members = members := by
    rw [collapseMembers_eq]
    refine (List.map_congr_left fun member hmember => ?_).trans (List.map_id members)
    rw [h member hmember, id]
  rw [collapse, hsame, Members.ofPairs_eq_self hnames]

theorem collapse_ofStrings (texts : List String) : (ofStrings texts).collapse = ofStrings texts :=
  collapse_arr (by simp)

/-! ### What a reader yields -/

/-- All that a reader reads has a property. -/
def Yields (p : α → Prop) (read : Json → Except ReadError α) : Prop :=
  ∀ value x, read value = .ok x → p x

theorem Yields.list (h : Yields p read) : Yields (fun xs => ∀ x ∈ xs, p x) (readList read) := by
  intro value xs hread x hx
  cases value with
  | arr items =>
    obtain ⟨item, -, hitem⟩ := exists_of_mem_mapM hread hx
    exact h item x hitem
  | _ => cases hread

theorem Yields.option (h : Yields p read) : Yields (fun x? => ∀ x ∈ x?, p x) (readOption read) := by
  rintro value _ hread x rfl
  unfold readOption at hread
  split at hread
  · cases hread
  · obtain ⟨_, hread, hsome⟩ := map_eq_ok_iff.mp hread
    cases hsome
    exact h _ _ hread

theorem yields_readNat (bound : Nat) : Yields (· ≤ bound) (readNat bound) := by
  intro value n hread
  rw [readNat, expect] at hread
  split at hread
  · rename_i found hfound
    cases hread
    unfold nat? at hfound
    split at hfound
    · split_ifs at hfound with hbounds
      cases hfound
      omega
    · cases hfound
  · cases hread

/-! ### What is read back -/

/-- Values with a property are read back from how they are written. -/
def ReadsBack (p : α → Prop) (encode : α → Json) (read : Json → Except ReadError α) : Prop :=
  ∀ x, p x → read (encode x) = .ok x

theorem ReadsBack.list (h : ReadsBack p encode read) :
    ReadsBack (fun xs => ∀ x ∈ xs, p x) (fun xs => .arr (xs.map encode)) (readList read) := by
  intro xs hxs
  rw [readList, mapM_eq_ok_iff, List.forall₂_map_left_iff, List.forall₂_same]
  exact fun x hx => h x (hxs x hx)

theorem readsBack_readString : ReadsBack (fun _ => True) .str readString :=
  fun _ _ => rfl

theorem readsBack_readNat (bound : Nat) : ReadsBack (· ≤ bound) ofNat (readNat bound) := by
  intro n hn
  rw [readNat, expect, nat?_ofNat hn]

theorem readsBack_readWord {word : α → String} {ofWord? : String → Option α}
    (h : ∀ x, ofWord? (word x) = some x) :
    ReadsBack (fun _ => True) (fun x => .str (word x)) (readWord ofWord?) := by
  intro x _
  rw [readWord, expect, word?, h]

end Json

/-! ### Fields -/

namespace Record

variable {α : Type} {r : Record} {name : String} {read : Json → Except ReadError α} {x : α}

/-- The value of a field is that of the first member of its name. -/
theorem map_find? (r : Record) (name : String) :
    (r.find? name).map (·.2) = Json.Members.get? name r.fields := by
  have hgo : ∀ (place : Nat) (members : Json.Members),
      (find?.go name place members).map (·.2) = Json.Members.get? name members := by
    intro place members
    induction members generalizing place with
    | nil => rfl
    | cons pair rest ih =>
      obtain ⟨key, value⟩ := pair
      rw [find?.go, Json.Members.get?]
      split_ifs
      · rfl
      · exact ih (place + 1)
  exact hgo 0 r.fields

theorem tagged_eq_done_iff {place : Nat} {outcome : Except ReadError α} :
    tagged place outcome = .done x ↔ outcome = .ok x := by
  cases outcome <;> simp [tagged]

theorem required_eq_done_iff :
    r.required name read = .done x ↔
      ∃ value, Json.Members.get? name r.fields = some value ∧ read value = .ok x := by
  rw [required, ← map_find?]
  cases r.find? name with
  | none => simp
  | some found => simp [tagged_eq_done_iff]

theorem withDefault_eq_done_iff {default : α} :
    r.withDefault name default read = .done x ↔
      (Json.Members.get? name r.fields = none ∧ default = x) ∨
        ∃ value, Json.Members.get? name r.fields = some value ∧ read value = .ok x := by
  rw [withDefault, ← map_find?]
  cases r.find? name with
  | none => simp
  | some found => simp [tagged_eq_done_iff]

/-- A record is read if all its fields are and there is nothing more in it. -/
theorem read_eq_ok_iff {names : List String} {value : Json} {fields : Record → Reading α} :
    Record.read names value fields = .ok x ↔
      ∃ r, ofJson names value = .ok r ∧ fields r = .done x ∧ overruns names value = false := by
  rw [Record.read, bind_eq_ok_iff]
  simp only [bind_eq_ok_iff, Reading.finish_eq_ok]
  constructor
  · rintro ⟨r, hr, result, hresult, h⟩
    split_ifs at h with hover
    cases h
    exact ⟨r, hr, hresult, by simpa using hover⟩
  · rintro ⟨r, hr, hresult, hover⟩
    exact ⟨r, hr, x, hresult, by simp [hover, pure, Except.pure]⟩

/-- An object that has some of the fields in their order is a record of these. -/
theorem read_obj {names : List String} {members : Json.Members} {fields : Record → Reading α}
    (hnames : names.Nodup) (hsub : (Json.Members.names members).Sublist names)
    (h : fields ⟨members⟩ = .done x) : Record.read names (.obj members) fields = .ok x := by
  have hknown : members.filter (fun member => names.contains member.1) = members := by
    refine List.filter_eq_self.mpr fun member hmember => List.contains_iff_mem.mpr ?_
    exact hsub.subset (List.mem_map_of_mem hmember)
  refine read_eq_ok_iff.mpr ⟨⟨members⟩, ?_, h, rfl⟩
  rw [ofJson, hknown, if_pos (hnames.sublist hsub)]

end Record

namespace Json

variable {α : Type} {p : α → Prop} {encode : α → Json} {read : Json → Except ReadError α}
  {r : Record} {name : String} {x : α}

theorem Yields.required (h : Yields p read) (hx : r.required name read = .done x) : p x := by
  obtain ⟨value, -, hread⟩ := Record.required_eq_done_iff.mp hx
  exact h value x hread

theorem Yields.withDefault (h : Yields p read) {default : α} (hdefault : p default)
    (hx : r.withDefault name default read = .done x) : p x := by
  rcases Record.withDefault_eq_done_iff.mp hx with ⟨-, rfl⟩ | ⟨value, -, hread⟩
  · exact hdefault
  · exact h value x hread

theorem ReadsBack.required (h : ReadsBack p encode read)
    (hname : Members.get? name r.fields = some (encode x)) (hx : p x) :
    r.required name read = .done x :=
  Record.required_eq_done_iff.mpr ⟨encode x, hname, h x hx⟩

/-- A list is read back that is left out where it is empty. -/
theorem ReadsBack.listField (h : ReadsBack p encode read) {xs : List α}
    (hname : Members.get? name r.fields =
      if xs.isEmpty then none else some (.arr (xs.map encode)))
    (hxs : ∀ x ∈ xs, p x) : r.withDefault name [] (readList read) = .done xs := by
  rw [Record.withDefault_eq_done_iff, hname]
  cases xs with
  | nil => exact .inl ⟨rfl, rfl⟩
  | cons x rest => exact .inr ⟨_, rfl, h.list (x :: rest) hxs⟩

/-- A value is read back that is left out where it is absent. -/
theorem ReadsBack.optionField (h : ReadsBack p encode read) (hnull : ∀ x, encode x ≠ .null)
    {x? : Option α} (hname : Members.get? name r.fields = x?.map encode)
    (hx : ∀ x ∈ x?, p x) : r.withDefault name none (readOption read) = .done x? := by
  rw [Record.withDefault_eq_done_iff, hname]
  cases x? with
  | none => exact .inl ⟨rfl, rfl⟩
  | some x =>
    refine .inr ⟨encode x, rfl, ?_⟩
    have hread := h x (hx x rfl)
    rw [readOption, hread]
    · rfl
    · exact hnull x

end Json

end JoinPlan
