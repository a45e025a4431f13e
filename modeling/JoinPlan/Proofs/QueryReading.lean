import JoinPlan.Proofs.RecordReading
import JoinPlan.Query.Written

/-!
# Queries are read back from how they are written

A query has many written forms: its records may be objects or arrays, with members that no query
has, with or without what is empty. Whichever of them it is read from, it is written in one form,
and from that form the same query is read.

Not every query has a written form. A reference is cut at the first dot of its text, and priorities
and limits are bounded. What is read is within these bounds, and what is within them is read back.
The written form repeats no name, so settling repeated names leaves it alone.

## Main definitions

* `TableRef.Legible`, `SortTerm.Legible`, `Join.Legible`, `Query.Legible`: what has a written form.

## Main results

* `Condition.ofJson?_toJson`: every condition is read back, although its kind is not written.
* `Join.yields_ofJson`, `Join.readsBack_ofJson`: joins with all that is below them.
* `Query.legible_iff_exists`: the queries that are read from anything are the legible ones.
* `Query.collapse_toJson`: what is written repeats no name.
* `Query.ofJson_toJson`: a query that was read is read back.
-/

namespace JoinPlan

open Json (Yields ReadsBack)

/-! ### References -/

/-- The reference is read from its own text. -/
def TableRef.Legible (ref : TableRef) : Prop :=
  parse? ref.text = some ref

theorem TableRef.yields_readTableRef : Yields TableRef.Legible Json.readTableRef := by
  intro value ref hread
  unfold Json.readTableRef at hread
  split at hread
  · split at hread
    · rename_i text found hfound
      cases hread
      rw [Legible, text_of_parse? hfound, hfound]
    · cases hread
  · cases hread

theorem TableRef.readsBack_readTableRef :
    ReadsBack TableRef.Legible TableRef.toJson Json.readTableRef := by
  intro ref href
  rw [toJson, Json.readTableRef, href]

/-! ### Conditions -/

namespace Condition

mutual

/-- **Every condition is read back.** A group has parts, a membership test has values and a
comparison has a value, and none of them has what the others have. -/
theorem ofJson?_toJson : ∀ condition : Condition, ofJson? condition.toJson = some condition
  | group connective parts => by
    have hparts := ofItems?_toJsonAll parts
    simp [toJson, ofJson?, ofMembers?, onlyMember?, partsOf?, partsOfValue?, hparts, Json.word?,
      Connective.ofWord?_word]
  | membership column operator values => by
    have hvalues : (values.map Json.str).mapM Json.str? = some values := by
      induction values with
      | nil => rfl
      | cons value rest ih => simp [ih]
    simp [toJson, ofJson?, ofMembers?, onlyMember?, Json.word?, Json.arr?, Json.ofStrings, hvalues,
      Membership.ofWord?_word]
  | comparison column operator value => by
    simp [toJson, ofJson?, ofMembers?, onlyMember?, Json.word?, Comparison.ofWord?_word]

theorem ofItems?_toJsonAll : ∀ parts : List Condition, ofItems? (toJsonAll parts) = some parts
  | [] => rfl
  | part :: rest => by
    rw [toJsonAll, ofItems?, ofJson?_toJson part, ofItems?_toJsonAll rest]
    rfl

end

theorem readsBack_ofJson : ReadsBack (fun _ => True) toJson ofJson := by
  intro condition _
  rw [ofJson, Json.expect, ofJson?_toJson]

theorem toJson_ne_null (condition : Condition) : condition.toJson ≠ .null := by
  cases condition <;> simp [toJson]

end Condition

/-! ### Selections and sorting -/

theorem Selection.readsBack_ofJson :
    ReadsBack (fun _ => True) Selection.toJson Selection.ofJson := by
  intro selection _
  cases selection with
  | all => rfl
  | columns names =>
    have hnames := Json.readsBack_readString.list names (by simp)
    rw [Json.readList] at hnames
    rw [toJson, Json.ofStrings, ofJson, hnames]
    rfl

namespace SortTerm

/-- The priority of the term is one that can be read. -/
def Legible (term : SortTerm) : Prop :=
  ∀ priority ∈ term.priority, priority ≤ maxPriority

theorem yields_ofJson : Yields Legible ofJson := by
  intro value term hread
  obtain ⟨r, -, hfields, -⟩ := Record.read_eq_ok_iff.mp hread
  simp only [Reading.seq_eq_done, Reading.map_eq_done] at hfields
  obtain ⟨_, priority, ⟨_, direction, ⟨column, -, rfl⟩, -, rfl⟩, hpriority, rfl⟩ := hfields
  exact (Json.yields_readNat maxPriority).option.withDefault (by simp) hpriority

/-- The members that a sort term is written with. -/
def members (term : SortTerm) : Json.Members :=
  [("column", .str term.column), ("direction", .str term.direction.word)] ++
    term.priority.toList.map fun priority => ("priority", .ofNat priority)

theorem names_members_sublist (term : SortTerm) : term.members.names.Sublist fieldNames := by
  rw [members, Json.Members.names_append]
  exact (List.Sublist.refl ["column", "direction"]).append (Json.Members.names_optional _ _ _)

theorem readsBack_ofJson : ReadsBack Legible toJson ofJson := by
  intro term hterm
  refine Record.read_obj (by decide) term.names_members_sublist ?_
  simp only [Reading.seq_eq_done, Reading.map_eq_done]
  refine ⟨_, term.priority, ⟨_, term.direction, ⟨term.column, ?_, rfl⟩, ?_, rfl⟩, ?_, rfl⟩
  · exact Json.readsBack_readString.required rfl trivial
  · exact (Json.readsBack_readWord SortDirection.ofWord?_word).required rfl trivial
  · refine (Json.readsBack_readNat maxPriority).optionField (fun _ => Json.noConfusion) ?_ hterm
    simp [Json.Members.get?_optional, Json.Members.get?]

end SortTerm

/-! ### Joins -/

namespace Join

/-- All references and sort terms at the join and below it have a written form. -/
inductive Legible : Join → Prop
  | mk {table : TableRef} {via : List TableRef} {select : Selection} {condition : Option Condition}
      {orderBy : List SortTerm} {joins : List Join} (table_legible : table.Legible)
      (via_legible : ∀ ref ∈ via, ref.Legible) (orderBy_legible : ∀ term ∈ orderBy, term.Legible)
      (joins_legible : ∀ child ∈ joins, child.Legible) :
      Legible ⟨table, via, select, condition, orderBy, joins⟩

theorem ofRecord_eq_done_iff {children : Except ReadError (List Join)} {r : Record} {join : Join} :
    ofRecord children r = .done join ↔
      r.required "tableRef" Json.readTableRef = .done join.table ∧
      r.withDefault "via" [] (Json.readList Json.readTableRef) = .done join.via ∧
      r.required "select" Selection.ofJson = .done join.select ∧
      r.withDefault "where" none (Json.readOption Condition.ofJson) = .done join.condition ∧
      r.withDefault "orderBy" [] (Json.readList SortTerm.ofJson) = .done join.orderBy ∧
      r.withDefault "joins" [] (fun _ => children) = .done join.joins := by
  simp only [ofRecord, Reading.seq_eq_done, Reading.map_eq_done]
  constructor
  · rintro ⟨_, joins, ⟨_, orderBy, ⟨_, condition, ⟨_, select, ⟨_, via, ⟨table, htable, rfl⟩, hvia,
      rfl⟩, hselect, rfl⟩, hcondition, rfl⟩, horderBy, rfl⟩, hjoins, rfl⟩
    exact ⟨htable, hvia, hselect, hcondition, horderBy, hjoins⟩
  · cases join
    rintro ⟨htable, hvia, hselect, hcondition, horderBy, hjoins⟩
    exact ⟨_, _, ⟨_, _, ⟨_, _, ⟨_, _, ⟨_, _, ⟨_, htable, rfl⟩, hvia, rfl⟩, hselect, rfl⟩,
      hcondition, rfl⟩, horderBy, rfl⟩, hjoins, rfl⟩

/-- A join that is read is legible if its children are. -/
theorem legible_of_read {value : Json} {children : Except ReadError (List Join)} {join : Join}
    (hread : Record.read fieldNames value (ofRecord children) = .ok join)
    (hchildren : ∀ joins, children = .ok joins → ∀ child ∈ joins, child.Legible) :
    join.Legible := by
  cases join
  obtain ⟨r, -, hfields, -⟩ := Record.read_eq_ok_iff.mp hread
  obtain ⟨htable, hvia, -, -, horderBy, hjoins⟩ := ofRecord_eq_done_iff.mp hfields
  refine .mk ?_ ?_ ?_ ?_
  · exact TableRef.yields_readTableRef.required htable
  · exact TableRef.yields_readTableRef.list.withDefault (by simp) hvia
  · exact SortTerm.yields_ofJson.list.withDefault (by simp) horderBy
  · rcases Record.withDefault_eq_done_iff.mp hjoins with ⟨-, rfl⟩ | ⟨-, -, hsome⟩
    · simp
    · exact hchildren _ hsome

mutual

/-- **What is read is legible,** down to the last join. -/
theorem yields_ofJson : Yields Legible ofJson
  | .obj members, _, hread => legible_of_read hread (legible_of_childrenOf members)
  | .arr items, _, hread => legible_of_read hread (legible_of_childrenAt 5 items)

theorem legible_of_childrenOf : ∀ (members : List (String × Json)) (joins : List Join),
    childrenOf members = .ok joins → ∀ join ∈ joins, join.Legible
  | [], joins, hread => by
    cases hread
    simp
  | (name, value) :: rest, joins, hread => by
    rw [childrenOf] at hread
    split_ifs at hread
    · exact legible_of_childrenOfValue value joins hread
    · exact legible_of_childrenOf rest joins hread

theorem legible_of_childrenAt : ∀ (position : Nat) (items : List Json) (joins : List Join),
    childrenAt position items = .ok joins → ∀ join ∈ joins, join.Legible
  | _, [], joins, hread => by
    rw [childrenAt] at hread
    cases hread
    simp
  | 0, item :: _, joins, hread => legible_of_childrenOfValue item joins hread
  | position + 1, _ :: rest, joins, hread => legible_of_childrenAt position rest joins hread

theorem legible_of_childrenOfValue : ∀ (value : Json) (joins : List Join),
    childrenOfValue value = .ok joins → ∀ join ∈ joins, join.Legible
  | .arr items, joins, hread => legible_of_ofItems items joins hread

theorem legible_of_ofItems : ∀ (items : List Json) (joins : List Join),
    ofItems items = .ok joins → ∀ join ∈ joins, join.Legible
  | [], joins, hread => by
    cases hread
    simp
  | item :: rest, joins, hread => by
    rw [ofItems, bind_eq_ok_iff] at hread
    obtain ⟨first, hfirst, hread⟩ := hread
    obtain ⟨others, hothers, hread⟩ := bind_eq_ok_iff.mp hread
    cases hread
    rw [List.forall_mem_cons]
    exact ⟨yields_ofJson item first hfirst, legible_of_ofItems rest others hothers⟩

end

/-- The members that a join is written with. -/
def members (join : Join) : Json.Members :=
  [("tableRef", join.table.toJson)] ++ listMember "via" (join.via.map TableRef.toJson) ++
    [("select", join.select.toJson)] ++
    join.condition.toList.map (fun condition => ("where", condition.toJson)) ++
    listMember "orderBy" (join.orderBy.map SortTerm.toJson) ++
    listMember "joins" (join.joins.map toJson)

theorem toJsonAll_eq (joins : List Join) : toJsonAll joins = joins.map toJson := by
  induction joins with
  | nil => rfl
  | cons join rest ih => rw [toJsonAll, ih, List.map_cons]

theorem toJson_eq (join : Join) : join.toJson = .obj join.members := by
  cases join
  rw [toJson, toJsonAll_eq, members]

theorem get?_listMember {α : Type} (name key : String) (encode : α → Json) (xs : List α) :
    Json.Members.get? name (listMember key (xs.map encode)) =
      if key = name then if xs.isEmpty then none else some (.arr (xs.map encode)) else none := by
  cases xs <;> simp [listMember, Json.Members.get?]

/-- What a join is written with under each name. -/
theorem get?_members (join : Join) :
    Json.Members.get? "tableRef" join.members = some join.table.toJson ∧
    Json.Members.get? "via" join.members =
      (if join.via.isEmpty then none else some (.arr (join.via.map TableRef.toJson))) ∧
    Json.Members.get? "select" join.members = some join.select.toJson ∧
    Json.Members.get? "where" join.members = join.condition.map Condition.toJson ∧
    Json.Members.get? "orderBy" join.members =
      (if join.orderBy.isEmpty then none else some (.arr (join.orderBy.map SortTerm.toJson))) ∧
    Json.Members.get? "joins" join.members =
      (if join.joins.isEmpty then none else some (.arr (join.joins.map toJson))) := by
  simp [members, Json.Members.get?_append, Json.Members.get?_optional, get?_listMember,
    Json.Members.get?]

theorem names_listMember (key : String) (items : List Json) :
    (Json.Members.names (listMember key items)).Sublist [key] := by
  cases items with
  | nil => exact List.nil_sublist _
  | cons item rest => exact List.Sublist.refl _

theorem names_members_sublist (join : Join) : join.members.names.Sublist fieldNames := by
  simp only [members, Json.Members.names_append]
  exact (((((List.Sublist.refl ["tableRef"]).append (names_listMember "via" _)).append
    (.refl ["select"])).append (Json.Members.names_optional "where" _ _)).append
    (names_listMember "orderBy" _)).append (names_listMember "joins" _)

/-- The children are under the first member for them. -/
theorem childrenOf_eq (members : Json.Members) :
    childrenOf members =
      ((Json.Members.get? "joins" members).map childrenOfValue).getD (.ok []) := by
  induction members with
  | nil => rfl
  | cons member rest ih =>
    obtain ⟨name, value⟩ := member
    rw [childrenOf, Json.Members.get?]
    split_ifs
    · rfl
    · exact ih

/-- A join is read back if its children are. -/
theorem ofJson_toJson_of_children {join : Join} (hjoin : join.Legible)
    (hchildren : ofItems (join.joins.map toJson) = .ok join.joins) :
    ofJson join.toJson = .ok join := by
  obtain ⟨htable, hvia, hselect, hcondition, horderBy, hjoins⟩ := get?_members join
  obtain @⟨table, via, select, condition, orderBy, joins, table_legible, via_legible,
    orderBy_legible, -⟩ := hjoin
  rw [toJson_eq, ofJson]
  refine Record.read_obj (by decide) (names_members_sublist _) (ofRecord_eq_done_iff.mpr ?_)
  refine ⟨?_, ?_, ?_, ?_, ?_, ?_⟩
  · exact TableRef.readsBack_readTableRef.required htable table_legible
  · exact TableRef.readsBack_readTableRef.listField hvia via_legible
  · exact Selection.readsBack_ofJson.required hselect trivial
  · exact Condition.readsBack_ofJson.optionField Condition.toJson_ne_null hcondition (by simp)
  · exact SortTerm.readsBack_ofJson.listField horderBy orderBy_legible
  · rw [Record.withDefault_eq_done_iff, hjoins, childrenOf_eq, hjoins]
    cases joins with
    | nil => exact .inl ⟨rfl, rfl⟩
    | cons child rest => exact .inr ⟨_, rfl, hchildren⟩

mutual

/-- **Legible joins are read back,** with all that is below them. -/
theorem readsBack_ofJson : ReadsBack Legible toJson ofJson
  | ⟨_, _, _, _, _, joins⟩, hjoin => by
    refine ofJson_toJson_of_children hjoin (ofItems_map_toJson joins ?_)
    cases hjoin
    assumption

theorem ofItems_map_toJson : ∀ joins : List Join, (∀ child ∈ joins, child.Legible) →
    ofItems (joins.map toJson) = .ok joins
  | [], _ => rfl
  | join :: rest, hjoins => by
    obtain ⟨hjoin, hrest⟩ := List.forall_mem_cons.mp hjoins
    rw [List.map_cons, ofItems, readsBack_ofJson join hjoin, ofItems_map_toJson rest hrest]
    rfl

end

end Join

/-! ### Queries -/

namespace Query

/-- The tree of joins has a written form, and the limit is one that can be read. -/
structure Legible (query : Query) : Prop where
  base : query.base.Legible
  limit : ∀ limit ∈ query.limit, limit ≤ maxLimit

theorem yields_ofJson : Yields Legible ofJson := by
  intro value query hread
  obtain ⟨r, -, hfields, -⟩ := Record.read_eq_ok_iff.mp hread
  simp only [Reading.seq_eq_done, Reading.map_eq_done] at hfields
  obtain ⟨_, limit, ⟨base, hbase, rfl⟩, hlimit, rfl⟩ := hfields
  exact ⟨Join.yields_ofJson.required hbase,
    (Json.yields_readNat maxLimit).option.withDefault (by simp) hlimit⟩

/-- The members that a query is written with. -/
def members (query : Query) : Json.Members :=
  [("base", query.base.toJson)] ++ query.limit.toList.map fun limit => ("limit", .ofNat limit)

theorem names_members_sublist (query : Query) : query.members.names.Sublist fieldNames := by
  rw [members, Json.Members.names_append]
  exact (List.Sublist.refl ["base"]).append (Json.Members.names_optional _ _ _)

theorem readsBack_ofJson : ReadsBack Legible toJson ofJson := by
  intro query hquery
  refine Record.read_obj (by decide) query.names_members_sublist ?_
  simp only [Reading.seq_eq_done, Reading.map_eq_done]
  refine ⟨_, query.limit, ⟨query.base, ?_, rfl⟩, ?_, rfl⟩
  · exact Join.readsBack_ofJson.required rfl hquery.base
  · refine (Json.readsBack_readNat maxLimit).optionField (fun _ => Json.noConfusion) ?_ hquery.limit
    simp [Json.Members.get?_optional, Json.Members.get?]

/-- The queries that have a written form are those that are read from any. -/
theorem legible_iff_exists {query : Query} :
    query.Legible ↔ ∃ value, ofJson value = .ok query :=
  ⟨fun h => ⟨query.toJson, readsBack_ofJson query h⟩, fun ⟨value, h⟩ => yields_ofJson value query h⟩

end Query

/-! ### What is written repeats no name -/

theorem Selection.collapse_toJson (selection : Selection) :
    selection.toJson.collapse = selection.toJson := by
  cases selection with
  | all => rfl
  | columns names => exact Json.collapse_ofStrings names

namespace Condition

mutual

theorem collapse_toJson : ∀ condition : Condition, condition.toJson.collapse = condition.toJson
  | group connective parts => by
    refine Json.collapse_obj (by simp [Json.Members.names]) ?_
    simp [Json.collapse_arr (collapse_of_mem_toJsonAll parts)]
  | membership column operator values => by
    refine Json.collapse_obj (by simp [Json.Members.names]) ?_
    simp [Json.collapse_ofStrings]
  | comparison column operator value => by
    refine Json.collapse_obj (by simp [Json.Members.names]) ?_
    simp

theorem collapse_of_mem_toJsonAll : ∀ parts : List Condition, ∀ item ∈ toJsonAll parts,
    item.collapse = item
  | [] => by simp [toJsonAll]
  | part :: rest => by
    rw [toJsonAll, List.forall_mem_cons]
    exact ⟨collapse_toJson part, collapse_of_mem_toJsonAll rest⟩

end

end Condition

theorem SortTerm.collapse_toJson (term : SortTerm) : term.toJson.collapse = term.toJson := by
  refine Json.collapse_obj (.sublist term.names_members_sublist (by decide)) ?_
  simp

namespace Join

theorem collapse_of_mem_listMember {key : String} {items : List Json}
    (h : ∀ item ∈ items, item.collapse = item) :
    ∀ member ∈ listMember key items, member.2.collapse = member.2 := by
  unfold listMember
  split_ifs
  · simp
  · simpa using Json.collapse_arr h

mutual

theorem collapse_toJson : ∀ join : Join, join.toJson.collapse = join.toJson
  | ⟨table, via, select, condition, orderBy, joins⟩ => by
    rw [toJson_eq]
    refine Json.collapse_obj (.sublist (names_members_sublist _) (by decide)) ?_
    simp only [members, List.forall_mem_append]
    refine ⟨⟨⟨⟨⟨?_, ?_⟩, ?_⟩, ?_⟩, ?_⟩, ?_⟩
    · simp [TableRef.toJson]
    · exact collapse_of_mem_listMember (by simp [TableRef.toJson])
    · simpa using select.collapse_toJson
    · simp [Condition.collapse_toJson]
    · exact collapse_of_mem_listMember (by simp [SortTerm.collapse_toJson])
    · exact collapse_of_mem_listMember (collapse_of_mem_map_toJson joins)

theorem collapse_of_mem_map_toJson : ∀ joins : List Join, ∀ item ∈ joins.map toJson,
    item.collapse = item
  | [] => by simp
  | join :: rest => by
    rw [List.map_cons, List.forall_mem_cons]
    exact ⟨collapse_toJson join, collapse_of_mem_map_toJson rest⟩

end

end Join

namespace Query

theorem collapse_toJson (query : Query) : query.toJson.collapse = query.toJson := by
  refine Json.collapse_obj (.sublist query.names_members_sublist (by decide)) ?_
  simp [query.base.collapse_toJson]

/-- **A query that was read is read back** from how it is written. That form repeats no name, so it
is also read back, and written the same again, by a reader that settles repeated names first. -/
theorem ofJson_toJson (value : Json) (query : Query) (hread : ofJson value = .ok query) :
    ofJson query.toJson = .ok query ∧
      (ofJson query.toJson.collapse).map toJson = .ok query.toJson := by
  have hback := readsBack_ofJson query (yields_ofJson value query hread)
  refine ⟨hback, ?_⟩
  rw [collapse_toJson, hback]
  rfl

end Query

/-- A query jotted down: as arrays where that is shorter, with a member that no query has. -/
def jotting : Json :=
  .arr [.obj [("joins", .arr [.arr [.str "shop.parcels", .ofStrings ["shop.orders"], .str "*"]]),
      ("select", .ofStrings ["id"]), ("colour", .null), ("tableRef", .str "shop.customers"),
      ("where", .obj [("operator", .str "and"), ("conditions",
        .arr [.obj [("column", .str "id"), ("operator", .str "="), ("value", .str "7")]])])],
    .ofNat 5]

/-- The query that was jotted down. -/
def jotted : Query :=
  ⟨⟨⟨"shop", "customers"⟩, [], .columns ["id"],
    some (.group .conjunction [.comparison "id" .equal "7"]), [],
    [⟨⟨"shop", "parcels"⟩, [⟨"shop", "orders"⟩], .all, none, [], []⟩]⟩, some 5⟩

theorem Query.ofJson_toJson_jotted :
    Query.ofJson jotting = .ok jotted ∧ Query.ofJson jotted.toJson = .ok jotted ∧
      (Query.ofJson jotted.toJson.collapse).map Query.toJson = .ok jotted.toJson := by
  have hread : Query.ofJson jotting = .ok jotted := by rfl
  exact ⟨hread, Query.ofJson_toJson jotting jotted hread⟩

end JoinPlan
