import JoinPlan.Proofs.Outcome
import JoinPlan.Query.Condition
import Mathlib.Data.List.Basic

/-!
# The text of a condition tells the condition

The text of a condition leaves out one thing only. A group of a single part is that part in
brackets, whatever its connective is. Everything else can be read off: which operator stands at
each leaf, although some operators begin like others; where a value ends, although it may say
anything, quotes and connectives included; and how the groups are nested, since every group has
brackets of its own.

All that this takes is that there are no spaces and no opening brackets in the names of the columns
and in the name that qualifies them. Names of letters, digits and underscores are of that kind, in
whatever script.

A text is read from left to right: each piece tells what it stands for and where it ends, whatever
comes after it. Values need some care. A literal ends at a quote, but only if no other quote
follows, so nothing that comes after a literal may begin with one.

## Main definitions

* `Unbroken`: a name without spaces and opening brackets.
* `Recoverable`: a text tells what it stands for, and where it ends.
* `Condition.settled`: the condition with the same connective in all groups of a single part.

## Main results

* `recoverable_quoteLiteral`: where a literal ends.
* `Recoverable.intercalate`: pieces with separators between them.
* `Condition.recoverable`: conditions.
* `Condition.renderOn_eq_iff`: two conditions have the same text if and only if they are the same,
  but for the connectives of groups of a single part.
-/

namespace JoinPlan

/-! ### Names -/

/-- There is no space and no opening bracket in a name. -/
def Unbroken (name : String) : Prop :=
  ' ' ∉ name.toList ∧ '(' ∉ name.toList

instance : DecidablePred Unbroken :=
  fun name => inferInstanceAs (Decidable (' ' ∉ name.toList ∧ '(' ∉ name.toList))

/-- Letters, digits and underscores make an unbroken name. -/
theorem unbroken_of_isAlphanum {name : String}
    (h : name.toList.all (fun c => c.isAlphanum || c = '_') = true) : Unbroken name := by
  have hall := List.all_eq_true.mp h
  exact ⟨fun hspace => absurd (hall _ hspace) (by decide),
    fun hbracket => absurd (hall _ hbracket) (by decide)⟩

/-- Lists are parted in one way at the first element of a kind. -/
theorem append_cons_inj_first {α : Type} {c : α} {front back rest more : List α}
    (hfront : c ∉ front) (hback : c ∉ back) (h : front ++ c :: rest = back ++ c :: more) :
    front = back ∧ rest = more := by
  rcases append_cons_eq_append_cons_iff.mp h with hsame | ⟨between, rfl, -⟩ | ⟨between, rfl, -⟩
  · exact hsame
  · exact absurd (List.mem_append_right _ List.mem_cons_self) hback
  · exact absurd (List.mem_append_right _ List.mem_cons_self) hfront

/-! ### Texts that tell what they stand for -/

/-- The text of `a` tells the sense of `a`, and where the text ends, whatever comes after it but a
quote: no other good text could have been meant. -/
def Recoverable {α β : Type} (text : α → String) (sense : α → β) (good : α → Prop) (a : α) : Prop :=
  ∀ b, good b → ∀ rest more : List Char, rest.head? ≠ some '\'' → more.head? ≠ some '\'' →
    (text a).toList ++ rest = (text b).toList ++ more → sense a = sense b ∧ rest = more

theorem toList_quoteLiteral_append (value : String) (rest : List Char) :
    (quoteLiteral value).toList ++ rest =
      '\'' :: (value.toList.flatMap (fun c => if c = '\'' then [c, c] else [c]) ++
        '\'' :: rest) := by
  simp [quoteLiteral]

/-- A text inside of a literal that begins with a quote begins with two of them. -/
theorem head?_of_flatMap_eq_cons {c : Char} {front rest more : List Char}
    (h : (c :: front).flatMap (fun c => if c = '\'' then [c, c] else [c]) ++ rest =
      '\'' :: more) : more.head? = some '\'' := by
  rw [List.flatMap_cons] at h
  split_ifs at h with hc
  · rw [← (List.cons.inj h).2, hc]
    rfl
  · exact absurd (List.cons.inj h).1 hc

/-- Inside of a literal, quotes are doubled, and it ends at the first one that is not. -/
theorem flatMap_append_quote_inj {front back rest more : List Char}
    (hrest : rest.head? ≠ some '\'') (hmore : more.head? ≠ some '\'')
    (h : front.flatMap (fun c => if c = '\'' then [c, c] else [c]) ++ '\'' :: rest =
      back.flatMap (fun c => if c = '\'' then [c, c] else [c]) ++ '\'' :: more) :
    front = back ∧ rest = more := by
  induction front generalizing back with
  | nil =>
    cases back with
    | nil => exact ⟨rfl, (List.cons.inj h).2⟩
    | cons d back => exact absurd (head?_of_flatMap_eq_cons h.symm) hrest
  | cons c front ih =>
    cases back with
    | nil => exact absurd (head?_of_flatMap_eq_cons h) hmore
    | cons d back =>
      have hhead : c = d := by
        rw [List.flatMap_cons, List.flatMap_cons] at h
        split_ifs at h <;> exact (List.cons.inj h).1
      subst hhead
      rw [List.flatMap_cons, List.flatMap_cons, List.append_assoc, List.append_assoc,
        List.append_cancel_left_eq] at h
      obtain ⟨rfl, hrest⟩ := ih h
      exact ⟨rfl, hrest⟩

/-- **Where a literal ends.** No quote in a value can pass for the one after it. -/
theorem recoverable_quoteLiteral (value : String) :
    Recoverable quoteLiteral id (fun _ => True) value := by
  intro other _ rest more hrest hmore h
  rw [toList_quoteLiteral_append, toList_quoteLiteral_append] at h
  obtain ⟨hvalue, hrest⟩ := flatMap_append_quote_inj hrest hmore (List.cons.inj h).2
  exact ⟨String.toList_inj.mp hvalue, hrest⟩

/-! ### Pieces with separators between them -/

theorem toList_intercalate_cons (separator first : String) (texts : List String) :
    (separator.intercalate (first :: texts)).toList =
      first.toList ++ texts.flatMap fun text => separator.toList ++ text.toList := by
  induction texts generalizing first with
  | nil => simp
  | cons second texts ih =>
    rw [String.intercalate_cons_of_ne_nil (List.cons_ne_nil _ _), String.toList_append,
      String.toList_append, ih, List.flatMap_cons, List.append_assoc, List.append_assoc]

/-- Separators begin with a character that is neither a quote nor a closing bracket, and none of
them is the beginning of another. -/
structure Separates {κ : Type} (separator : κ → String) : Prop where
  begins : ∀ k, ∃ c tail, (separator k).toList = c :: tail ∧ c ≠ '\'' ∧ c ≠ ')'
  append_inj : ∀ j k, ∀ rest more : List Char,
    (separator j).toList ++ rest = (separator k).toList ++ more → j = k ∧ rest = more

section

variable {α β κ : Type} {text : α → String} {sense : α → β} {good : α → Prop}
  {separator : κ → String} {j k : κ} {rest more : List Char}

/-- Neither a separator nor the closing bracket is a quote. -/
theorem Separates.head?_flatMap_ne (hsep : Separates separator) (xs : List String) :
    (xs.flatMap (fun x => (separator k).toList ++ x.toList) ++ ')' :: rest).head? ≠
      some '\'' := by
  cases xs with
  | nil => simp
  | cons x xs =>
    obtain ⟨c, tail, hbegins, hquote, -⟩ := hsep.begins k
    rw [List.flatMap_cons, hbegins]
    simpa using hquote

/-- What follows the first piece: after every piece there is a separator or the bracket. -/
theorem Recoverable.flatMap (hsep : Separates separator) {as bs : List α}
    (has : ∀ a ∈ as, Recoverable text sense good a) (hbs : ∀ b ∈ bs, good b)
    (h : (as.map text).flatMap (fun x => (separator j).toList ++ x.toList) ++ ')' :: rest =
      (bs.map text).flatMap (fun x => (separator k).toList ++ x.toList) ++ ')' :: more) :
    (as = [] ∨ j = k) ∧ as.map sense = bs.map sense ∧ rest = more := by
  induction as generalizing bs with
  | nil =>
    cases bs with
    | nil => exact ⟨.inl rfl, rfl, (List.cons.inj h).2⟩
    | cons b bs =>
      obtain ⟨c, tail, hbegins, -, hbracket⟩ := hsep.begins k
      rw [List.map_cons, List.flatMap_cons, hbegins] at h
      exact absurd (List.cons.inj h).1.symm hbracket
  | cons a as ih =>
    cases bs with
    | nil =>
      obtain ⟨c, tail, hbegins, -, hbracket⟩ := hsep.begins j
      rw [List.map_cons, List.flatMap_cons, hbegins] at h
      exact absurd (List.cons.inj h).1 hbracket
    | cons b bs =>
      obtain ⟨ha, has⟩ := List.forall_mem_cons.mp has
      obtain ⟨hb, hbs⟩ := List.forall_mem_cons.mp hbs
      simp only [List.map_cons, List.flatMap_cons, List.append_assoc] at h
      obtain ⟨hjk, h⟩ := hsep.append_inj _ _ _ _ h
      obtain ⟨hsense, h⟩ := ha b hb _ _ (hsep.head?_flatMap_ne _) (hsep.head?_flatMap_ne _) h
      obtain ⟨-, hsenses, hrest⟩ := ih has hbs h
      exact ⟨.inr hjk, by rw [List.map_cons, List.map_cons, hsense, hsenses], hrest⟩

/-- **Pieces with separators between them** up to a closing bracket. If there is more than one
piece, the text tells the separator too. -/
theorem Recoverable.intercalate (hsep : Separates separator) {a b : α} {as bs : List α}
    (has : ∀ x ∈ a :: as, Recoverable text sense good x) (hbs : ∀ y ∈ b :: bs, good y)
    (h : ((separator j).intercalate ((a :: as).map text)).toList ++ ')' :: rest =
      ((separator k).intercalate ((b :: bs).map text)).toList ++ ')' :: more) :
    (as = [] ∨ j = k) ∧ (a :: as).map sense = (b :: bs).map sense ∧ rest = more := by
  obtain ⟨ha, has⟩ := List.forall_mem_cons.mp has
  obtain ⟨hb, hbs⟩ := List.forall_mem_cons.mp hbs
  rw [List.map_cons, List.map_cons, toList_intercalate_cons, toList_intercalate_cons,
    List.append_assoc, List.append_assoc] at h
  obtain ⟨hsense, h⟩ := ha b hb _ _ (hsep.head?_flatMap_ne _) (hsep.head?_flatMap_ne _) h
  obtain ⟨hjk, hsenses, hrest⟩ := Recoverable.flatMap hsep has hbs h
  exact ⟨hjk, by rw [List.map_cons, List.map_cons, hsense, hsenses], hrest⟩

end

theorem separates_connective : Separates fun k : Connective => " " ++ k.sql ++ " " where
  begins k := ⟨' ', (k.sql ++ " ").toList, by simp, by decide, by decide⟩
  append_inj j k rest more h := by
    cases j <;> cases k <;> simp_all [Connective.sql]

theorem separates_comma : Separates fun _ : Unit => "," where
  begins _ := ⟨',', [], by simp, by decide, by decide⟩
  append_inj _ _ rest more h := ⟨rfl, by simpa using h⟩

/-- The first literal begins with a quote, so the bracket cannot come before it. -/
theorem intercalate_quoteLiteral_ne_bracket (value : String) (values : List String)
    (rest more : List Char) :
    (",".intercalate ((value :: values).map quoteLiteral)).toList ++ rest ≠ ')' :: more := by
  rw [List.map_cons, toList_intercalate_cons, List.append_assoc, toList_quoteLiteral_append]
  exact fun h => absurd (List.cons.inj h).1 (by decide)

/-- Literals with commas between them up to a closing bracket. There may be none of them. -/
theorem intercalate_quoteLiteral_inj {values others : List String} {rest more : List Char}
    (h : (",".intercalate (values.map quoteLiteral)).toList ++ ')' :: rest =
      (",".intercalate (others.map quoteLiteral)).toList ++ ')' :: more) :
    values = others ∧ rest = more := by
  cases values with
  | nil =>
    cases others with
    | nil => exact ⟨rfl, by simpa using h⟩
    | cons other others => exact absurd h.symm (intercalate_quoteLiteral_ne_bracket _ _ _ _)
  | cons value values =>
    cases others with
    | nil => exact absurd h (intercalate_quoteLiteral_ne_bracket _ _ _ _)
    | cons other others =>
      obtain ⟨-, hvalues, hrest⟩ := Recoverable.intercalate (j := ()) (k := ()) separates_comma
        (fun value _ => recoverable_quoteLiteral value) (fun _ _ => trivial) h
      rw [List.map_id, List.map_id] at hvalues
      exact ⟨hvalues, hrest⟩

/-! ### Leaves -/

/-- The text of the operator of a leaf. -/
def operatorText : Comparison ⊕ Membership → String :=
  Sum.elim Comparison.sql Membership.sql

/-- Some operators begin like others, but not with the space after them. -/
theorem operatorText_append_inj {o p : Comparison ⊕ Membership} {rest more : List Char}
    (h : (operatorText o).toList ++ ' ' :: rest = (operatorText p).toList ++ ' ' :: more) :
    o = p ∧ rest = more := by
  rcases o with o | o <;> rcases p with p | p <;> cases o <;> cases p <;>
    simp_all [operatorText, Comparison.sql, Membership.sql]

/-- The text of a leaf: its qualified column, its operator and what the operator is applied to. -/
def leafText (qualifier column : String) (operator : Comparison ⊕ Membership)
    (operand : List Char) : List Char :=
  qualifier.toList ++
    '.' :: (column.toList ++ ' ' :: ((operatorText operator).toList ++ ' ' :: operand))

section

variable {qualifier column other : String} {o p : Comparison ⊕ Membership}
  {operand rest more : List Char}

theorem leafText_inj (hcolumn : Unbroken column) (hother : Unbroken other)
    (h : leafText qualifier column o rest = leafText qualifier other p more) :
    column = other ∧ o = p ∧ rest = more := by
  rw [leafText, leafText, List.append_cancel_left_eq] at h
  obtain ⟨hname, h⟩ := append_cons_inj_first hcolumn.1 hother.1 (List.cons.inj h).2
  exact ⟨String.toList_inj.mp hname, operatorText_append_inj h⟩

/-- The text of a leaf begins with the qualifier, which has no opening bracket. -/
theorem leafText_ne_bracket (hq : Unbroken qualifier) :
    leafText qualifier column o operand ≠ '(' :: rest := by
  intro h
  rw [leafText] at h
  cases hqualifier : qualifier.toList with
  | nil =>
    rw [hqualifier] at h
    exact absurd (List.cons.inj h).1 (by decide)
  | cons c tail =>
    rw [hqualifier] at h
    exact hq.2 (hqualifier ▸ (List.cons.inj h).1 ▸ List.mem_cons_self)

/-- The qualifier goes on until the dot, so it cannot pass for the number of a neutral condition. -/
theorem leafText_ne_number (hq : Unbroken qualifier) :
    leafText qualifier column o operand ≠ '1' :: ' ' :: rest := by
  intro h
  rw [leafText] at h
  rcases hqualifier : qualifier.toList with _ | ⟨c, _ | ⟨d, tail⟩⟩
  · rw [hqualifier] at h
    exact absurd (List.cons.inj h).1 (by decide)
  · rw [hqualifier] at h
    exact absurd (List.cons.inj (List.cons.inj h).2).1 (by decide)
  · rw [hqualifier] at h
    have hspace : d = ' ' := (List.cons.inj (List.cons.inj h).2).1
    refine hq.1 ?_
    rw [hqualifier, hspace]
    exact List.mem_cons_of_mem _ List.mem_cons_self

end

/-! ### Conditions -/

namespace Condition

mutual

/-- The condition with the same connective in all groups of a single part, where the connective
connects nothing. -/
def settled : Condition → Condition
  | group connective parts =>
    group (if parts.length = 1 then .conjunction else connective) (settledAll parts)
  | membership column operator values => membership column operator values
  | comparison column operator value => comparison column operator value

/-- All conditions of a list, settled. -/
def settledAll : List Condition → List Condition
  | [] => []
  | part :: rest => part.settled :: settledAll rest

end

theorem settledAll_eq (parts : List Condition) : settledAll parts = parts.map settled := by
  induction parts with
  | nil => rfl
  | cons part rest ih => rw [settledAll, ih, List.map_cons]

theorem settled_group (connective : Connective) (parts : List Condition) :
    (group connective parts).settled =
      group (if parts.length = 1 then .conjunction else connective) (parts.map settled) := by
  rw [settled, settledAll_eq]

theorem columnsOf_eq (parts : List Condition) : columnsOf parts = parts.flatMap columns := by
  induction parts with
  | nil => rfl
  | cons part rest ih => rw [columnsOf, ih, List.flatMap_cons]

/-- The names of all columns are unbroken. -/
def Legible (condition : Condition) : Prop :=
  ∀ column ∈ condition.columns, Unbroken column

theorem legible_group_iff {connective : Connective} {parts : List Condition} :
    (group connective parts).Legible ↔ ∀ part ∈ parts, part.Legible := by
  rw [Legible, columns, columnsOf_eq, List.forall_mem_flatMap]
  rfl

variable {qualifier : String} {rest more : List Char}

theorem toList_render_comparison (column : String) (operator : Comparison) (value : String) :
    ((comparison column operator value).render qualifier).toList ++ rest =
      leafText qualifier column (.inl operator) ((quoteLiteral value).toList ++ rest) := by
  simp [render, leafText, operatorText]

theorem toList_render_membership (column : String) (operator : Membership)
    (values : List String) :
    ((membership column operator values).render qualifier).toList ++ rest =
      leafText qualifier column (.inr operator)
        ('(' :: ((",".intercalate (values.map quoteLiteral)).toList ++ ')' :: rest)) := by
  simp [render, leafText, operatorText]

theorem toList_render_group (connective : Connective) (part : Condition)
    (parts : List Condition) :
    ((group connective (part :: parts)).render qualifier).toList ++ rest =
      '(' :: (((" " ++ connective.sql ++ " ").intercalate
        ((part :: parts).map (render qualifier))).toList ++ ')' :: rest) := by
  rw [render, renderAll_eq]
  simp

/-- A group begins with a bracket. -/
theorem exists_toList_render_group (connective : Connective) (parts : List Condition)
    (rest : List Char) :
    ∃ tail, ((group connective parts).render qualifier).toList ++ rest = '(' :: tail := by
  cases parts with
  | nil =>
    rw [render]
    cases connective <;> simp [Connective.neutral]
  | cons part parts => exact ⟨_, toList_render_group connective part parts⟩

/-- A leaf is not mistaken for a group: there are no brackets before its operator. -/
theorem leafText_ne_group (hq : Unbroken qualifier) {column : String}
    {operator : Comparison ⊕ Membership} {operand : List Char} (connective : Connective)
    (parts : List Condition) :
    leafText qualifier column operator operand ≠
      ((group connective parts).render qualifier).toList ++ rest := by
  obtain ⟨tail, htext⟩ := exists_toList_render_group connective parts rest
  rw [htext]
  exact leafText_ne_bracket hq

theorem neutral_append_inj {j k : Connective}
    (h : j.neutral.toList ++ rest = k.neutral.toList ++ more) : j = k ∧ rest = more := by
  cases j <;> cases k <;> simp_all [Connective.neutral]

/-- No condition begins like what is inside the brackets of a neutral one. -/
theorem render_append_ne_number (hq : Unbroken qualifier) (condition : Condition) :
    (condition.render qualifier).toList ++ rest ≠ '1' :: ' ' :: more := by
  cases condition with
  | group connective parts =>
    obtain ⟨tail, htext⟩ := exists_toList_render_group connective parts rest
    rw [htext]
    exact fun h => absurd (List.cons.inj h).1 (by decide)
  | membership column operator values =>
    rw [toList_render_membership]
    exact leafText_ne_number hq
  | comparison column operator value =>
    rw [toList_render_comparison]
    exact leafText_ne_number hq

/-- A neutral condition is not mistaken for a group that has parts. -/
theorem neutral_append_ne_group (hq : Unbroken qualifier) (j k : Connective) (part : Condition)
    (parts : List Condition) :
    j.neutral.toList ++ rest ≠
      ((group k (part :: parts)).render qualifier).toList ++ more := by
  rw [toList_render_group, List.map_cons, toList_intercalate_cons, List.append_assoc]
  intro h
  cases j <;> exact render_append_ne_number hq part (List.cons.inj h).2.symm

/-- A group has brackets of its own, and its parts are told one after the other. Which connective
it is cannot be told if there is a single part. -/
theorem recoverable_group (hq : Unbroken qualifier) {connective : Connective}
    {parts : List Condition}
    (hparts : ∀ part ∈ parts, Recoverable (render qualifier) settled Legible part) :
    Recoverable (render qualifier) settled Legible (group connective parts) := by
  intro other hother rest more _ _ h
  cases other with
  | group k others =>
    rw [legible_group_iff] at hother
    cases parts with
    | nil =>
      cases others with
      | nil =>
        obtain ⟨rfl, hrest⟩ := neutral_append_inj h
        exact ⟨rfl, hrest⟩
      | cons other others => exact absurd h (neutral_append_ne_group hq _ _ _ _)
    | cons part parts =>
      cases others with
      | nil => exact absurd h.symm (neutral_append_ne_group hq _ _ _ _)
      | cons other others =>
        rw [toList_render_group, toList_render_group] at h
        obtain ⟨hsingle, hsettled, hrest⟩ :=
          Recoverable.intercalate separates_connective hparts hother (List.cons.inj h).2
        have hlength : (part :: parts).length = (other :: others).length := by
          simpa using congrArg List.length hsettled
        refine ⟨?_, hrest⟩
        rw [settled_group, settled_group, hsettled, ← hlength]
        -- the separators tell the connective, and where there are none it is settled
        rcases hsingle with rfl | rfl
        · rfl
        · rfl
  | membership column operator values =>
    rw [toList_render_membership] at h
    exact absurd h.symm (leafText_ne_group hq _ _)
  | comparison column operator value =>
    rw [toList_render_comparison] at h
    exact absurd h.symm (leafText_ne_group hq _ _)

theorem recoverable_membership (hq : Unbroken qualifier) {column : String}
    {operator : Membership} {values : List String} (hcolumn : Unbroken column) :
    Recoverable (render qualifier) settled Legible (membership column operator values) := by
  intro other hother rest more _ _ h
  rw [toList_render_membership] at h
  cases other with
  | group k others => exact absurd h (leafText_ne_group hq _ _)
  | membership column' operator' values' =>
    rw [toList_render_membership] at h
    obtain ⟨rfl, hoperator, hoperand⟩ := leafText_inj hcolumn (hother _ List.mem_cons_self) h
    cases hoperator
    obtain ⟨rfl, hrest⟩ := intercalate_quoteLiteral_inj (List.cons.inj hoperand).2
    exact ⟨rfl, hrest⟩
  | comparison column' operator' value' =>
    rw [toList_render_comparison] at h
    obtain ⟨-, hoperator, -⟩ := leafText_inj hcolumn (hother _ List.mem_cons_self) h
    cases hoperator

theorem recoverable_comparison (hq : Unbroken qualifier) {column : String}
    {operator : Comparison} {value : String} (hcolumn : Unbroken column) :
    Recoverable (render qualifier) settled Legible (comparison column operator value) := by
  intro other hother rest more hrest hmore h
  rw [toList_render_comparison] at h
  cases other with
  | group k others => exact absurd h (leafText_ne_group hq _ _)
  | membership column' operator' values' =>
    rw [toList_render_membership] at h
    obtain ⟨-, hoperator, -⟩ := leafText_inj hcolumn (hother _ List.mem_cons_self) h
    cases hoperator
  | comparison column' operator' value' =>
    rw [toList_render_comparison] at h
    obtain ⟨rfl, hoperator, hoperand⟩ := leafText_inj hcolumn (hother _ List.mem_cons_self) h
    cases hoperator
    obtain ⟨rfl, hrest⟩ := recoverable_quoteLiteral value value' trivial _ _ hrest hmore hoperand
    exact ⟨rfl, hrest⟩

mutual

/-- **The text of a condition tells the condition**, but for the connectives of groups of a single
part, and where it ends. -/
theorem recoverable (hq : Unbroken qualifier) : ∀ condition : Condition, condition.Legible →
    Recoverable (render qualifier) settled Legible condition
  | .group _ parts, h => recoverable_group hq (recoverable_of_mem hq parts (legible_group_iff.mp h))
  | .membership _ _ _, h => recoverable_membership hq (h _ List.mem_cons_self)
  | .comparison _ _ _, h => recoverable_comparison hq (h _ List.mem_cons_self)

theorem recoverable_of_mem (hq : Unbroken qualifier) : ∀ parts : List Condition,
    (∀ part ∈ parts, part.Legible) → ∀ part ∈ parts,
    Recoverable (render qualifier) settled Legible part
  | [], _ => by simp
  | part :: rest, h => by
    obtain ⟨hpart, hrest⟩ := List.forall_mem_cons.mp h
    exact List.forall_mem_cons.mpr ⟨recoverable hq part hpart, recoverable_of_mem hq rest hrest⟩

end

/-! ### What the text leaves out -/

/-- A single part looks the same, whatever its group is. -/
theorem render_group_single (j k : Connective) (part : Condition) :
    (group j [part]).render qualifier = (group k [part]).render qualifier := by
  rw [render, render, renderAll_eq, List.map_singleton, String.intercalate_singleton,
    String.intercalate_singleton]

/-- The text of a group is made of the texts of its parts. -/
theorem render_group_congr (connective : Connective) {parts others : List Condition}
    (h : parts.map (render qualifier) = others.map (render qualifier)) :
    (group connective parts).render qualifier = (group connective others).render qualifier := by
  cases parts with
  | nil => rw [List.map_eq_nil_iff.mp h.symm]
  | cons part parts =>
    cases others with
    | nil => exact absurd h (List.cons_ne_nil _ _)
    | cons other others => rw [render, render, renderAll_eq, renderAll_eq, h]

mutual

/-- The connectives of groups of a single part are not in the text. -/
theorem render_settled (qualifier : String) : ∀ condition : Condition,
    condition.settled.render qualifier = condition.render qualifier
  | .group connective parts => by
    rw [settled_group]
    have hparts := render_group_congr connective (settledAll_texts qualifier parts)
    split_ifs with hsingle
    · obtain ⟨part, rfl⟩ := List.length_eq_one_iff.mp hsingle
      rw [← hparts]
      exact render_group_single _ _ _
    · exact hparts
  | .membership _ _ _ => rfl
  | .comparison _ _ _ => rfl

theorem settledAll_texts (qualifier : String) : ∀ parts : List Condition,
    (parts.map settled).map (render qualifier) = parts.map (render qualifier)
  | [] => rfl
  | part :: rest => by
    rw [List.map_cons, List.map_cons, List.map_cons, render_settled qualifier part,
      settledAll_texts qualifier rest]

end

/-! ### Conditions on a table -/

section

variable {ref : TableRef} {table : Table} {joinAlias : Option String} {c d : Condition}
  {text other : String}

theorem renderOn_eq_ok_iff : c.renderOn ref table joinAlias = .ok text ↔
    (∀ column ∈ c.columns, column ∈ table.columnNames) ∧
      text = c.render (joinAlias.getD ref.text) := by
  have hchecked : c.check ref table = .ok () ↔ ∀ column ∈ c.columns, column ∈ table.columnNames :=
    check_eq_ok_iff.trans (forall₂_congr fun column _ => table.hasColumn_iff column)
  rw [renderOn, bind_eq_ok_iff, ← hchecked]
  constructor
  · rintro ⟨_, hcheck, h⟩
    cases h
    exact ⟨hcheck, rfl⟩
  · rintro ⟨hcheck, rfl⟩
    exact ⟨(), hcheck, rfl⟩

/-- **Two conditions have the same text** if and only if they are the same, but for the connectives
of groups of a single part. It takes that there are no spaces and no opening brackets in the names
of the table's columns and in the name that qualifies them. -/
theorem renderOn_eq_iff (hcolumns : ∀ name ∈ table.columnNames, Unbroken name)
    (hqualifier : Unbroken (joinAlias.getD ref.text))
    (hc : c.renderOn ref table joinAlias = .ok text)
    (hd : d.renderOn ref table joinAlias = .ok other) :
    text = other ↔ c.settled = d.settled := by
  obtain ⟨hcnames, rfl⟩ := renderOn_eq_ok_iff.mp hc
  obtain ⟨hdnames, rfl⟩ := renderOn_eq_ok_iff.mp hd
  have hlegible : ∀ condition : Condition,
      (∀ column ∈ condition.columns, column ∈ table.columnNames) → condition.Legible :=
    fun _ hnames column hcolumn => hcolumns column (hnames column hcolumn)
  constructor
  · intro h
    have hread := recoverable hqualifier c (hlegible c hcnames) d (hlegible d hdnames) [] []
      (by simp) (by simp)
    rw [List.append_nil, List.append_nil] at hread
    exact (hread (congrArg String.toList h)).1
  · intro h
    rw [← render_settled _ c, h, render_settled]

end

end Condition

/-- The orders of a shop, without their keys. -/
def ordersTable : Table :=
  ⟨"orders", [⟨"id", "integer", .number, false, true, [], []⟩,
    ⟨"customer", "integer", .number, false, false, [], []⟩]⟩

/-- One order of one customer. -/
def orderOfCustomer : Condition :=
  .group .conjunction [.comparison "customer" .equal "1", .comparison "id" .equal "2"]

/-- The orders of a customer whose name would like to pass for both comparisons. -/
def ordersOfForger : Condition :=
  .group .conjunction [.comparison "customer" .equal "1' AND shop__orders__1.id = '2"]

theorem renderOn_ordersOfForger :
    (∀ name ∈ ordersTable.columnNames, Unbroken name) ∧ Unbroken "shop__orders__1" ∧
    ∃ text other,
      orderOfCustomer.renderOn ⟨"shop", "orders"⟩ ordersTable (some "shop__orders__1") = .ok text ∧
      ordersOfForger.renderOn ⟨"shop", "orders"⟩ ordersTable (some "shop__orders__1") = .ok other ∧
      text ≠ other := by
  have hcolumns : ∀ name ∈ ordersTable.columnNames, Unbroken name := by decide
  have hqualifier : Unbroken ((some "shop__orders__1").getD (TableRef.text ⟨"shop", "orders"⟩)) :=
    unbroken_of_isAlphanum (by decide)
  have hgenuine : orderOfCustomer.renderOn ⟨"shop", "orders"⟩ ordersTable
      (some "shop__orders__1") = .ok _ :=
    Condition.renderOn_eq_ok_iff.mpr ⟨by decide, rfl⟩
  have hforged : ordersOfForger.renderOn ⟨"shop", "orders"⟩ ordersTable
      (some "shop__orders__1") = .ok _ :=
    Condition.renderOn_eq_ok_iff.mpr ⟨by decide, rfl⟩
  have hdiffer : orderOfCustomer.settled ≠ ordersOfForger.settled := by decide
  have htexts := Condition.renderOn_eq_iff hcolumns hqualifier hgenuine hforged
  exact ⟨hcolumns, hqualifier, _, _, hgenuine, hforged, htexts.not.mpr hdiffer⟩

example : ordersOfForger.render "shop__orders__1" =
    "(shop__orders__1.customer = '1'' AND shop__orders__1.id = ''2')" := by
  decide

end JoinPlan
