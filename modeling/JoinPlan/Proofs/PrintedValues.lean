import JoinPlan.Json.Document
import JoinPlan.Proofs.PrintedLayouts

/-!
# Printed values are read back

Words are read in two steps: they are parsed as a document, and all of the document is read. Parsing
takes two rounds for every word at most, however lists are nested, and what closes a list is never
taken for its first part. Reading goes down to a fixed depth, so a value that is not too deep is
read as what it is.

## Main definitions

* `Json.document`: the syntax of a value.
* `Json.Document.IsSyntaxOf`: tokens are a document, whatever comes after them.

## Main results

* `Json.Document.items?_intercalate`, `Json.Document.members?_intercalate`: lists of parts.
* `Json.Printable.isSyntaxOf_words`: the words of a value are its syntax.
* `Json.Printable.read?_document`: all of the syntax is read.
* `Json.Printable.parse?_compact`, `Json.Printable.parse?_pretty`: values are read back from both
  layouts.
-/

namespace JoinPlan

namespace Json

/-! ### Documents -/

mutual

/-- The syntax of a value. -/
def document : Json → Document
  | .null => .null
  | .bool value => .bool value
  | .num n => .num (some n)
  | .str text => .str (some text)
  | .arr items => .arr (documentsOfItems items)
  | .obj members => .obj (documentsOfMembers members)

/-- The syntax of all items. -/
def documentsOfItems : List Json → List Document
  | [] => []
  | item :: rest => item.document :: documentsOfItems rest

/-- The syntax of all members. -/
def documentsOfMembers : List (String × Json) → List (Option String × Document)
  | [] => []
  | (name, value) :: rest => (some name, value.document) :: documentsOfMembers rest

end

theorem documentsOfItems_eq (items : List Json) : documentsOfItems items = items.map document := by
  induction items with
  | nil => rfl
  | cons item rest ih => rw [documentsOfItems, ih, List.map_cons]

theorem documentsOfMembers_eq (members : Members) :
    documentsOfMembers members =
      members.map fun member => (some member.1, member.2.document) := by
  induction members with
  | nil => rfl
  | cons member rest ih => rw [documentsOfMembers, ih, List.map_cons]

namespace Document

variable {part rest : List Token} {parts : List (List Token)} {document : Document}

/-- Tokens are a document, whatever comes after them, and two rounds for each of them are enough to
tell. -/
def IsSyntaxOf (part : List Token) (document : Document) : Prop :=
  ∀ (fuel : Nat) (rest : List Token), 2 * part.length ≤ fuel →
    value? fuel (part ++ rest) = some (document, rest)

/-- A document does not begin with what closes another one. -/
theorem IsSyntaxOf.append_ne (h : IsSyntaxOf part document) (rest more : List Token) :
    part ++ rest ≠ .closeBracket :: more := by
  intro hclose
  have hread := h (2 * part.length + 1) rest (Nat.le_succ _)
  rw [hclose] at hread
  cases hread

theorem value?_openBracket {fuel : Nat} {tokens : List Token}
    (h : ∀ more, tokens ≠ .closeBracket :: more) :
    value? (fuel + 1) (.openBracket :: tokens) = items? fuel [] tokens := by
  rw [value?]
  exact h

theorem value?_openBrace {fuel : Nat} {tokens : List Token}
    (h : ∀ more, tokens ≠ .closeBrace :: more) :
    value? (fuel + 1) (.openBrace :: tokens) = members? fuel [] tokens := by
  rw [value?]
  exact h

theorem items?_intercalate {documents : List Document}
    (h : List.Forall₂ IsSyntaxOf parts documents) (hne : parts ≠ []) {fuel : Nat}
    (hfuel : 2 * ([Token.comma].intercalate parts).length + 2 ≤ fuel) (acc : List Document)
    (rest : List Token) :
    items? fuel acc ([.comma].intercalate parts ++ .closeBracket :: rest) =
      some (.arr (acc.reverse ++ documents), rest) := by
  induction h generalizing fuel acc with
  | nil => exact absurd rfl hne
  | @cons part document parts documents hfirst hrest ih =>
    obtain ⟨fuel, rfl⟩ := Nat.exists_eq_add_of_le' (Nat.le_trans (Nat.le_add_left 1 _) hfuel)
    cases hrest with
    | nil =>
      rw [List.intercalate_singleton] at hfuel ⊢
      rw [items?, hfirst fuel _ (by omega)]
      simp
    | @cons second document' parts documents hsecond hlater =>
      rw [List.intercalate_cons_cons] at hfuel ⊢
      simp only [List.length_append, List.length_cons, List.length_nil] at hfuel
      rw [items?, List.append_assoc, List.append_assoc, hfirst fuel _ (by omega)]
      dsimp only [List.singleton_append]
      rw [ih (List.cons_ne_nil _ _) (by omega)]
      simp

/-- Tokens are a member: a name, a colon and a document. -/
def IsMember (part : List Token) (member : Option String × Document) : Prop :=
  ∃ inner, part = .str member.1 :: .colon :: inner ∧ IsSyntaxOf inner member.2

theorem members?_intercalate {members : List (Option String × Document)}
    (h : List.Forall₂ IsMember parts members) (hne : parts ≠ []) {fuel : Nat}
    (hfuel : 2 * ([Token.comma].intercalate parts).length + 2 ≤ fuel)
    (acc : List (Option String × Document)) (rest : List Token) :
    members? fuel acc ([.comma].intercalate parts ++ .closeBrace :: rest) =
      some (.obj (acc.reverse ++ members), rest) := by
  induction h generalizing fuel acc with
  | nil => exact absurd rfl hne
  | @cons part member parts members hfirst hrest ih =>
    obtain ⟨inner, rfl, hinner⟩ := hfirst
    obtain ⟨fuel, rfl⟩ := Nat.exists_eq_add_of_le' (Nat.le_trans (Nat.le_add_left 1 _) hfuel)
    cases hrest with
    | nil =>
      rw [List.intercalate_singleton] at hfuel ⊢
      simp only [List.length_cons] at hfuel
      rw [List.cons_append, List.cons_append, members?, hinner fuel _ (by omega)]
      simp
    | @cons second member' parts members hsecond hlater =>
      rw [List.intercalate_cons_cons] at hfuel ⊢
      simp only [List.length_append, List.length_cons, List.length_nil] at hfuel
      rw [List.append_assoc, List.append_assoc, List.cons_append, List.cons_append, members?,
        hinner fuel _ (by omega)]
      dsimp only [List.singleton_append]
      rw [ih (List.cons_ne_nil _ _) (by omega)]
      simp

/-- The first step of reading a document can be told from a single token. -/
theorem isSyntaxOf_singleton {token : Token}
    (h : ∀ fuel rest, value? (fuel + 1) (token :: rest) = some (document, rest)) :
    IsSyntaxOf [token] document := by
  intro fuel rest hfuel
  obtain ⟨fuel, rfl⟩ := Nat.exists_eq_add_of_le' (Nat.le_trans (Nat.le_add_left 1 1) hfuel)
  exact h fuel rest

theorem isSyntaxOf_arr {documents : List Document}
    (h : List.Forall₂ IsSyntaxOf parts documents) :
    IsSyntaxOf (.openBracket :: ([.comma].intercalate parts ++ [.closeBracket]))
      (.arr documents) := by
  intro fuel rest hfuel
  simp only [List.length_cons, List.length_append, List.length_nil] at hfuel
  obtain ⟨fuel, rfl⟩ := Nat.exists_eq_add_of_le' (Nat.le_trans (Nat.le_add_left 1 _) hfuel)
  rw [List.cons_append, List.append_assoc, List.singleton_append]
  cases h with
  | nil => rfl
  | cons hfirst hrest =>
    rw [value?_openBracket, items?_intercalate (.cons hfirst hrest) (List.cons_ne_nil _ _)
      (by omega)]
    · rfl
    · intro more
      cases hrest with
      | nil =>
        rw [List.intercalate_singleton]
        exact hfirst.append_ne _ more
      | cons hsecond hlater =>
        rw [List.intercalate_cons_cons, List.append_assoc, List.append_assoc]
        exact hfirst.append_ne _ more

theorem isSyntaxOf_obj {members : List (Option String × Document)}
    (h : List.Forall₂ IsMember parts members) :
    IsSyntaxOf (.openBrace :: ([.comma].intercalate parts ++ [.closeBrace])) (.obj members) := by
  intro fuel rest hfuel
  simp only [List.length_cons, List.length_append, List.length_nil] at hfuel
  obtain ⟨fuel, rfl⟩ := Nat.exists_eq_add_of_le' (Nat.le_trans (Nat.le_add_left 1 _) hfuel)
  rw [List.cons_append, List.append_assoc, List.singleton_append]
  cases h with
  | nil => rfl
  | cons hfirst hrest =>
    rw [value?_openBrace, members?_intercalate (.cons hfirst hrest) (List.cons_ne_nil _ _)
      (by omega)]
    · rfl
    · obtain ⟨inner, rfl, -⟩ := hfirst
      simp [List.intercalate_cons_cons_left]

end Document

variable {depth : Nat} {value : Json}

/-- **The words of a value are its syntax.** -/
theorem Printable.isSyntaxOf_words (h : value.Printable depth) :
    Document.IsSyntaxOf value.words value.document := by
  induction h with
  | null => exact Document.isSyntaxOf_singleton fun _ _ => rfl
  | bool value => exact Document.isSyntaxOf_singleton fun _ _ => rfl
  | num h =>
    obtain ⟨literal, hliteral, hnumber⟩ := Option.bind_eq_some_iff.mp h
    rw [words, hliteral]
    refine Document.isSyntaxOf_singleton fun fuel rest => ?_
    rw [Document.value?, hnumber, document]
  | str text => exact Document.isSyntaxOf_singleton fun _ _ => rfl
  | arr _ ih =>
    rw [words, document, wordsOfItems_eq, documentsOfItems_eq]
    refine Document.isSyntaxOf_arr ?_
    rw [List.forall₂_map_left_iff, List.forall₂_map_right_iff, List.forall₂_same]
    exact ih
  | obj _ ih =>
    rw [words, document, wordsOfMembers_eq, documentsOfMembers_eq]
    refine Document.isSyntaxOf_obj ?_
    rw [List.forall₂_map_left_iff, List.forall₂_map_right_iff, List.forall₂_same]
    exact fun member hmember => ⟨_, rfl, ih member hmember⟩

/-! ### Values -/

theorem readItems?_documents {items : List Json}
    (h : ∀ item ∈ items, item.document.read? View.whole depth () = some item) (index : Nat) :
    Document.readItems? View.whole depth () index (items.map document) = some items := by
  induction items generalizing index with
  | nil => rfl
  | cons item rest ih =>
    obtain ⟨hitem, hrest⟩ := List.forall_mem_cons.mp h
    rw [List.map_cons, Document.readItems?, ih hrest]
    simp only [View.whole] at hitem ⊢
    rw [hitem]
    rfl

theorem readMembers?_documents {members : Members}
    (h : ∀ member ∈ members, member.2.document.read? View.whole depth () = some member.2) :
    Document.readMembers? View.whole depth ()
      (members.map fun member => (some member.1, member.2.document)) = some members := by
  induction members with
  | nil => rfl
  | cons member rest ih =>
    obtain ⟨hmember, hrest⟩ := List.forall_mem_cons.mp h
    rw [List.map_cons, Document.readMembers?, ih hrest]
    simp only [View.whole] at hmember ⊢
    simp [hmember]

/-- **All of a document is read** if there are not too many arrays and objects inside one
another. -/
theorem Printable.read?_document (h : value.Printable depth) :
    value.document.read? View.whole depth () = some value := by
  induction h with
  | null => rfl
  | bool value => rfl
  | num h => rfl
  | str text => rfl
  | arr _ ih =>
    rw [document, documentsOfItems_eq, Document.read?, readItems?_documents ih, Option.map_some]
  | obj _ ih =>
    rw [document, documentsOfMembers_eq, Document.read?, readMembers?_documents ih,
      Option.map_some]

theorem Printable.parse?_of_stands (h : value.Printable maxDepth) {text : String}
    (htext : Stands text value.words) : parse? text = some value := by
  have hsyntax := h.isSyntaxOf_words (2 * value.words.length) [] (Nat.le_refl _)
  rw [List.append_nil] at hsyntax
  have hdocument : Document.parse? text = some value.document := by
    rw [Document.parse?, htext.tokens?_eq, Option.bind_eq_bind, Option.bind_some, hsyntax]
  rw [parse?, hdocument, Option.bind_some, h.read?_document]

/-- **A value is read back from one line.** -/
theorem Printable.parse?_compact (h : value.Printable maxDepth) :
    parse? value.compact = some value :=
  h.parse?_of_stands h.stands_compact

/-- **A value is read back from its layout over lines.** -/
theorem Printable.parse?_pretty (h : value.Printable maxDepth) :
    parse? value.pretty = some value :=
  h.parse?_of_stands (h.stands_prettyAt 0)

end Json

end JoinPlan
