import JoinPlan.Sql.Statement
import Mathlib.Data.List.Basic

/-!
# Literals in a text

Whoever reads a statement goes from left to right. A quote opens a literal, which runs to the next
quote that no other quote follows; two quotes in a row stand for one inside the literal. What a
piece of a text is read as does not depend on what comes before it, and depends on what comes after
it only if that begins with a quote.

So a text that is put together from literals and from pieces without quotes, with some such piece
between any two literals, is read as just these literals. The rest of what is read does not depend
on them: it is what would be read if all literals were empty.

## Main definitions

* `Lexeme`, `scan`: what a text is read as.
* `literals?`, `outside?`: the literals in a text, and what is around them.
* `Unquoted`: a text without quotes.
* `Lexes`: what a piece of a text is read as, whatever comes before and after.
* `ReadsAs`: a piece with certain literals, and the same piece with empty ones.

## Main results

* `lexes_quoteLiteral`: a quoted text is read as that text.
* `ReadsAs.intercalate`: pieces with something between any two of them.
* `ReadsAs.literals?_eq`, `ReadsAs.outside?_eq`: what is read of a whole text.
-/

namespace JoinPlan

/-! ### Reading a text -/

/-- A text is read as characters outside all literals, and literals. -/
inductive Lexeme where
  | plain (c : Char)
  | literal (text : String)
  deriving DecidableEq, Repr

/-- What is read, apart from what the literal says. -/
def Lexeme.blank : Lexeme → Lexeme
  | plain c => plain c
  | literal _ => literal ""

/-- What a literal says. -/
def Lexeme.value? : Lexeme → Option String
  | plain _ => none
  | literal text => some text

/-- Reads characters, inside of a literal of which something has been read, or outside. It fails
if a literal does not end. -/
def scanFrom : Option (List Char) → List Char → Option (List Lexeme)
  | none, [] => some []
  | none, c :: rest =>
    if c = '\'' then scanFrom (some []) rest
    else (scanFrom none rest).map (.plain c :: ·)
  | some _, [] => none
  | some front, '\'' :: '\'' :: rest => scanFrom (some (front ++ ['\''])) rest
  | some front, '\'' :: rest => (scanFrom none rest).map (.literal (String.ofList front) :: ·)
  | some front, c :: rest => scanFrom (some (front ++ [c])) rest

/-- What a text is read as. -/
def scan (text : String) : Option (List Lexeme) :=
  scanFrom none text.toList

/-- The literals in a text, from left to right, if the last one ends. -/
def literals? (text : String) : Option (List String) :=
  (scan text).map (·.filterMap Lexeme.value?)

/-- What is outside the literals of a text, and where these are, if the last one ends. -/
def outside? (text : String) : Option (List Lexeme) :=
  (scan text).map (·.map Lexeme.blank)

variable {front rest : List Char} {c : Char} {text more blank moreBlank piece : String}
  {lexemes others : List Lexeme} {values moreValues : List String}

theorem scanFrom_plain (hc : c ≠ '\'') :
    scanFrom none (c :: rest) = (scanFrom none rest).map (.plain c :: ·) := by
  rw [scanFrom, if_neg hc]

theorem scanFrom_inside (hc : c ≠ '\'') :
    scanFrom (some front) (c :: rest) = scanFrom (some (front ++ [c])) rest := by
  rw [scanFrom]
  · rintro _ rfl
    exact absurd rfl hc
  · exact hc

theorem scanFrom_doubled :
    scanFrom (some front) ('\'' :: '\'' :: rest) = scanFrom (some (front ++ ['\''])) rest := by
  rw [scanFrom]

theorem scanFrom_end (h : rest.head? ≠ some '\'') :
    scanFrom (some front) ('\'' :: rest) =
      (scanFrom none rest).map (.literal (String.ofList front) :: ·) := by
  rw [scanFrom]
  rintro _ rfl
  exact h rfl

/-! ### Texts without quotes -/

/-- There is no quote in the text. -/
def Unquoted (text : String) : Prop :=
  '\'' ∉ text.toList

instance : DecidablePred Unquoted :=
  fun text => inferInstanceAs (Decidable ('\'' ∉ text.toList))

theorem unquoted_append_iff : Unquoted (text ++ more) ↔ Unquoted text ∧ Unquoted more := by
  simp [Unquoted]

theorem unquoted_empty : Unquoted "" := by
  decide

theorem Unquoted.append (h : Unquoted text) (h' : Unquoted more) : Unquoted (text ++ more) :=
  unquoted_append_iff.mpr ⟨h, h'⟩

theorem Unquoted.head?_ne (h : Unquoted text) : text.toList.head? ≠ some '\'' :=
  fun hhead => h (List.mem_of_mem_head? hhead)

theorem unquoted_intercalate (h : Unquoted piece) {texts : List String}
    (hall : ∀ text ∈ texts, Unquoted text) : Unquoted (piece.intercalate texts) := by
  induction texts with
  | nil => exact unquoted_empty
  | cons text texts ih =>
    obtain ⟨hfirst, hrest⟩ := List.forall_mem_cons.mp hall
    by_cases hempty : texts = []
    · rwa [hempty, String.intercalate_singleton]
    · rw [String.intercalate_cons_of_ne_nil hempty]
      exact (hfirst.append h).append (ih hrest)

theorem unquoted_join {texts : List String} (hall : ∀ text ∈ texts, Unquoted text) :
    Unquoted (String.join texts) := by
  rw [Unquoted, String.toList_join, List.mem_flatMap]
  rintro ⟨text, htext, hquote⟩
  exact hall text htext hquote

theorem unquoted_toString (n : Nat) : Unquoted (toString n) := by
  intro h
  have hdigit : '\''.isDigit = true :=
    Nat.isDigit_of_mem_toDigits (b := 10) (by decide) (by decide) (by simpa [Nat.repr] using h)
  cases hdigit

theorem unquoted_renderClause {keyword separator : String} (hkeyword : Unquoted keyword)
    (hseparator : Unquoted separator) {parts : List String}
    (hall : ∀ part ∈ parts, Unquoted part) : Unquoted (renderClause keyword separator parts) := by
  rw [renderClause]
  split_ifs
  · exact unquoted_empty
  · exact hkeyword.append (unquoted_intercalate hseparator hall)

/-! ### Pieces of a text -/

/-- What the text is read as outside of a literal, if what comes after it does not begin with a
quote. -/
def Lexes (text : String) (lexemes : List Lexeme) : Prop :=
  ∀ rest : List Char, rest.head? ≠ some '\'' →
    scanFrom none (text.toList ++ rest) = (scanFrom none rest).map (lexemes ++ ·)

/-- The characters of a text without quotes are read one by one, whatever comes after it. -/
theorem Unquoted.scanFrom_append (h : Unquoted text) (rest : List Char) :
    scanFrom none (text.toList ++ rest) =
      (scanFrom none rest).map (text.toList.map Lexeme.plain ++ ·) := by
  rw [Unquoted] at h
  generalize text.toList = front at h
  induction front with
  | nil => simp
  | cons c front ih =>
    rw [List.mem_cons, not_or] at h
    obtain ⟨hc, hfront⟩ := h
    rw [List.cons_append, scanFrom_plain (Ne.symm hc), ih hfront, Option.map_map]
    rfl

theorem Unquoted.lexes (h : Unquoted text) : Lexes text (text.toList.map Lexeme.plain) :=
  fun rest _ => h.scanFrom_append rest

/-- Nothing that comes before a piece changes what it is read as, if there are no quotes in it. -/
theorem Unquoted.lexes_append (h : Unquoted piece) (h' : Lexes text lexemes) :
    Lexes (piece ++ text) (piece.toList.map Lexeme.plain ++ lexemes) := by
  intro rest hrest
  rw [String.toList_append, List.append_assoc, h.scanFrom_append, h' rest hrest, Option.map_map]
  simp only [Function.comp_def, List.append_assoc]

theorem Lexes.append (h : Lexes text lexemes) (h' : Lexes more others)
    (hhead : more.toList.head? ≠ some '\'') : Lexes (text ++ more) (lexemes ++ others) := by
  intro rest hrest
  have hnext : (more.toList ++ rest).head? ≠ some '\'' := by
    cases hmore : more.toList with
    | nil => exact hrest
    | cons c _ => rwa [hmore] at hhead
  rw [String.toList_append, List.append_assoc, h _ hnext, h' rest hrest, Option.map_map]
  simp only [Function.comp_def, List.append_assoc]

/-- **A quoted text is read as that text.** -/
theorem lexes_quoteLiteral (text : String) : Lexes (quoteLiteral text) [.literal text] := by
  intro rest hrest
  -- inside the literal, with some of the text already read
  have hinside : ∀ back front : List Char,
      scanFrom (some front)
        (back.flatMap (fun c => if c = '\'' then [c, c] else [c]) ++ '\'' :: rest) =
        (scanFrom none rest).map (.literal (String.ofList (front ++ back)) :: ·) := by
    intro back
    induction back with
    | nil =>
      intro front
      rw [List.flatMap_nil, List.nil_append, List.append_nil, scanFrom_end hrest]
    | cons c back ih =>
      intro front
      rw [List.flatMap_cons]
      split_ifs with hc
      · subst hc
        rw [List.cons_append, List.singleton_append, List.cons_append, List.cons_append,
          scanFrom_doubled, ih, List.append_assoc, List.singleton_append]
      · rw [List.singleton_append, List.cons_append, scanFrom_inside hc, ih, List.append_assoc,
          List.singleton_append]
  have hquote : (quoteLiteral text).toList ++ rest =
      '\'' ::
        (text.toList.flatMap (fun c => if c = '\'' then [c, c] else [c]) ++ '\'' :: rest) := by
    simp [quoteLiteral]
  rw [hquote, scanFrom, if_pos rfl, hinside, List.nil_append, String.ofList_toList]
  rfl

/-! ### Pieces with literals -/

/-- A text has certain literals. Another text is read in the same way, but with all of them
empty. -/
def ReadsAs (text blank : String) (values : List String) : Prop :=
  ∃ lexemes, Lexes text lexemes ∧ Lexes blank (lexemes.map Lexeme.blank) ∧
    lexemes.filterMap Lexeme.value? = values

theorem map_blank_plain (front : List Char) :
    (front.map Lexeme.plain).map Lexeme.blank = front.map Lexeme.plain := by
  rw [List.map_map]
  rfl

theorem filterMap_value?_plain (front : List Char) :
    (front.map Lexeme.plain).filterMap Lexeme.value? = [] := by
  rw [List.filterMap_map]
  exact List.filterMap_eq_nil_iff.mpr fun _ _ => rfl

theorem readsAs_quoteLiteral (text : String) :
    ReadsAs (quoteLiteral text) (quoteLiteral "") [text] :=
  ⟨[.literal text], lexes_quoteLiteral text, lexes_quoteLiteral "", rfl⟩

theorem Unquoted.readsAs (h : Unquoted text) : ReadsAs text text [] :=
  ⟨_, h.lexes, (map_blank_plain _).symm ▸ h.lexes, filterMap_value?_plain _⟩

theorem Unquoted.readsAs_append (h : Unquoted piece) (h' : ReadsAs text blank values) :
    ReadsAs (piece ++ text) (piece ++ blank) values := by
  obtain ⟨lexemes, htext, hblank, rfl⟩ := h'
  refine ⟨_, h.lexes_append htext, ?_, ?_⟩
  · rw [List.map_append, map_blank_plain]
    exact h.lexes_append hblank
  · rw [List.filterMap_append, filterMap_value?_plain, List.nil_append]

namespace ReadsAs

theorem append (h : ReadsAs text blank values) (h' : ReadsAs more moreBlank moreValues)
    (hhead : more.toList.head? ≠ some '\'') (hhead' : moreBlank.toList.head? ≠ some '\'') :
    ReadsAs (text ++ more) (blank ++ moreBlank) (values ++ moreValues) := by
  obtain ⟨lexemes, htext, hblank, rfl⟩ := h
  obtain ⟨others, hmore, hmoreBlank, rfl⟩ := h'
  refine ⟨_, htext.append hmore hhead, ?_, List.filterMap_append⟩
  rw [List.map_append]
  exact hblank.append hmoreBlank hhead'

theorem append_unquoted (h : ReadsAs text blank values) (hpiece : Unquoted piece) :
    ReadsAs (text ++ piece) (blank ++ piece) values := by
  have happend := h.append hpiece.readsAs hpiece.head?_ne hpiece.head?_ne
  rwa [List.append_nil] at happend

/-- Literals do not run into one another if there is something between them. -/
theorem separated (h : ReadsAs text blank values) (h' : ReadsAs more moreBlank moreValues)
    (hpiece : Unquoted piece) (hne : piece ≠ "") :
    ReadsAs (text ++ piece ++ more) (blank ++ piece ++ moreBlank) (values ++ moreValues) := by
  have hhead : ∀ rest : String, (piece ++ rest).toList.head? ≠ some '\'' := by
    intro rest
    have hcons : piece.toList ≠ [] := fun hnil => hne (String.toList_eq_nil_iff.mp hnil)
    rw [String.toList_append, List.head?_append_of_ne_nil _ hcons]
    exact hpiece.head?_ne
  rw [String.append_assoc, String.append_assoc]
  exact h.append (hpiece.readsAs_append h') (hhead more) (hhead moreBlank)

/-- **Pieces with something between any two of them** are read one after the other. -/
theorem intercalate {α : Type} {xs : List α} {render renderBlank : α → String}
    {valuesOf : α → List String} (hpiece : Unquoted piece) (hne : piece ≠ "")
    (h : ∀ x ∈ xs, ReadsAs (render x) (renderBlank x) (valuesOf x)) :
    ReadsAs (piece.intercalate (xs.map render)) (piece.intercalate (xs.map renderBlank))
      (xs.flatMap valuesOf) := by
  induction xs with
  | nil => exact unquoted_empty.readsAs
  | cons x xs ih =>
    obtain ⟨hfirst, hrest⟩ := List.forall_mem_cons.mp h
    by_cases hempty : xs = []
    · subst hempty
      simpa using hfirst
    · have hmap : ∀ f : α → String, xs.map f ≠ [] := fun f => by simpa using hempty
      rw [List.map_cons, List.map_cons, String.intercalate_cons_of_ne_nil (hmap render),
        String.intercalate_cons_of_ne_nil (hmap renderBlank), List.flatMap_cons]
      exact hfirst.separated (ih hrest) hpiece hne

theorem renderClause {α : Type} {xs : List α} {render renderBlank : α → String}
    {valuesOf : α → List String} {keyword : String} (hkeyword : Unquoted keyword)
    (hpiece : Unquoted piece) (hne : piece ≠ "")
    (h : ∀ x ∈ xs, ReadsAs (render x) (renderBlank x) (valuesOf x)) :
    ReadsAs (renderClause keyword piece (xs.map render))
      (JoinPlan.renderClause keyword piece (xs.map renderBlank)) (xs.flatMap valuesOf) := by
  cases xs with
  | nil => exact unquoted_empty.readsAs
  | cons x xs => exact hkeyword.readsAs_append (intercalate hpiece hne h)

/-! ### Whole texts -/

theorem scan_eq (h : ReadsAs text blank values) :
    ∃ lexemes, scan text = some lexemes ∧ scan blank = some (lexemes.map Lexeme.blank) ∧
      lexemes.filterMap Lexeme.value? = values := by
  obtain ⟨lexemes, htext, hblank, hvalues⟩ := h
  refine ⟨lexemes, ?_, ?_, hvalues⟩
  · simpa [scan, scanFrom] using htext [] (by simp)
  · simpa [scan, scanFrom] using hblank [] (by simp)

/-- **The literals of a text** are its values, and the last one ends. -/
theorem literals?_eq (h : ReadsAs text blank values) : literals? text = some values := by
  obtain ⟨lexemes, htext, -, rfl⟩ := h.scan_eq
  rw [literals?, htext, Option.map_some]

example : literals? "a = 'it''s' AND b = ''" = some ["it's", ""] := by
  decide

/-- **What is outside the literals** is what is read of the text with empty ones. -/
theorem outside?_eq (h : ReadsAs text blank values) : outside? text = scan blank := by
  obtain ⟨lexemes, htext, hblank, -⟩ := h.scan_eq
  rw [outside?, htext, hblank, Option.map_some]

end ReadsAs

end JoinPlan
