import JoinPlan.Proofs.PrintedWords
import Mathlib.Data.List.Forall2

/-!
# Both layouts have the same words

A value is printed on one line or over several. The layouts differ in blanks only, and blanks
between words do not count. So both are read as the same words, if the numbers in the value are read
from how they are printed. Not all are: there are no infinities in JSON.

What a text stands for is told for a text with something after it, which begins where a word may
end. Then the texts of the parts of a list can be put together.

## Main definitions

* `Json.Spells`: characters are words in a row, with blanks between them.
* `Json.Stands`: a text stands for words wherever a word may end.
* `Json.Number.Readable`: a number is read from how it is printed.
* `Json.words`: the words of a value.
* `Json.Printable`: the numbers of a value are readable, and it is not too deep.

## Main results

* `Json.Stands.tokens?_eq`: the lexer finds the words that a text stands for.
* `Json.stands_intercalate`, `Json.Brackets.stands`: lists between brackets.
* `Json.Printable.stands_compact`, `Json.Printable.stands_prettyAt`: both layouts stand for the
  words of the value.
-/

namespace JoinPlan

namespace Json

variable {c : Char} {rest : List Char} {tokens : List Token}

/-! ### Words in a row -/

/-- Characters are words, with blanks between them or not, that stand for tokens. -/
inductive Spells : List Char → List Token → Prop
  | done : Spells [] []
  | blank {c : Char} {cs : List Char} {tokens : List Token} (hc : isBlank c = true)
      (h : Spells cs tokens) : Spells (c :: cs) tokens
  | word {c : Char} {cs rest : List Char} {token : Token} {tokens : List Token}
      (hword : token? (c :: cs) = some (token, rest)) (hlt : rest.length ≤ cs.length)
      (h : Spells rest tokens) : Spells (c :: cs) (token :: tokens)

/-- The lexer finds the tokens. Each round takes a character at least, so there are enough. -/
theorem Spells.tokensFrom_eq {cs : List Char} (h : Spells cs tokens) {rounds : Nat}
    (hrounds : cs.length ≤ rounds) (acc : List Token) :
    tokensFrom rounds acc cs = some (acc.reverse ++ tokens) := by
  induction h generalizing rounds acc with
  | done => rw [tokensFrom, List.append_nil]
  | @blank c cs tokens hc _ ih =>
    obtain ⟨rounds, rfl⟩ := Nat.exists_eq_add_of_le' (Nat.le_trans (Nat.succ_pos _) hrounds)
    rw [tokensFrom, if_pos hc]
    exact ih (Nat.le_of_succ_le_succ hrounds) acc
  | @word c cs rest token tokens hword hlt _ ih =>
    obtain ⟨rounds, rfl⟩ := Nat.exists_eq_add_of_le' (Nat.le_trans (Nat.succ_pos _) hrounds)
    have hc : ¬isBlank c = true := by
      intro hc
      rw [token?_of_isBlank hc] at hword
      cases hword
    rw [tokensFrom, if_neg hc, hword]
    dsimp only
    rw [ih (Nat.le_trans hlt (Nat.le_of_succ_le_succ hrounds)), List.reverse_cons,
      List.append_assoc, List.singleton_append]

theorem Spells.tokens?_eq {text : String} (h : Spells text.toList tokens) :
    tokens? text = some tokens := by
  rw [tokens?, h.tokensFrom_eq (Nat.le_of_eq String.length_toList) []]
  rfl

theorem Spells.blanks {front : List Char} (hfront : ∀ c ∈ front, isBlank c = true)
    (h : Spells rest tokens) : Spells (front ++ rest) tokens := by
  induction front with
  | nil => exact h
  | cons c front ih =>
    obtain ⟨hc, hfront⟩ := List.forall_mem_cons.mp hfront
    exact .blank hc (ih hfront)

/-- A text stands for tokens wherever a word may end. -/
def Stands (text : String) (tokens : List Token) : Prop :=
  ∀ rest more, EndsWord rest → Spells rest more → Spells (text.toList ++ rest) (tokens ++ more)

theorem Stands.tokens?_eq {text : String} (h : Stands text tokens) :
    tokens? text = some tokens := by
  have hall := h [] [] (by simp [EndsWord]) .done
  rw [List.append_nil, List.append_nil] at hall
  exact hall.tokens?_eq

theorem spells_quote (text : String) {more : List Token} (h : Spells rest more) :
    Spells ((quote text).toList ++ rest) (.str (some text) :: more) := by
  have hquote : (quote text).toList ++ rest =
      '"' :: (text.toList.flatMap escapeChar ++ '"' :: rest) := by
    simp [quote]
  have htoken := token?_quote text rest
  rw [hquote] at htoken ⊢
  exact .word htoken (by simp; omega) h

/-- The literal that a number is printed as. -/
def Number.literal? (n : Number) : Option Literal :=
  match token? n.text.toList with
  | some (.num literal, []) => some literal
  | _ => none

/-- The number is read from how it is printed. -/
def Number.Readable (n : Number) : Prop :=
  n.literal?.bind Literal.number? = some n

instance : DecidablePred Number.Readable :=
  fun n => inferInstanceAs (Decidable (n.literal?.bind Literal.number? = some n))

theorem Number.stands_text {n : Number} {literal : Literal} (h : n.literal? = some literal) :
    Stands n.text [.num literal] := by
  unfold literal? at h
  split at h
  case h_2 => cases h
  rename_i hread
  cases h
  intro rest more hrest hmore
  have hword := token?_append_of_num hread hrest
  have hcons : ∃ c cs, n.text.toList = c :: cs := by
    rcases token?_eq_num hread with ⟨digits, hdigits, -⟩ | ⟨c, digits, hdigits, -⟩
    · exact ⟨_, _, hdigits⟩
    · exact ⟨_, _, hdigits⟩
  obtain ⟨c, cs, hcs⟩ := hcons
  rw [hcs] at hword ⊢
  exact .word hword (by simp) hmore

/-! ### Lists between brackets -/

theorem endsWord_blanks_append {front : List Char} (hfront : ∀ c ∈ front, isBlank c = true)
    (h : EndsWord rest) : EndsWord (front ++ rest) := by
  cases front with
  | nil => exact h
  | cons c front =>
    rintro _ ⟨⟩
    exact .inl (hfront _ List.mem_cons_self)

/-- Commas stand between the parts of a list, with blanks after them or not. -/
theorem stands_intercalate (blanks : String) (hblanks : ∀ c ∈ blanks.toList, isBlank c = true)
    {texts : List String} {parts : List (List Token)} (h : List.Forall₂ Stands texts parts) :
    Stands (("," ++ blanks).intercalate texts) ([.comma].intercalate parts) := by
  induction h with
  | nil => exact fun rest more _ hmore => hmore
  | @cons text part texts parts hfirst hrest ih =>
    cases hrest with
    | nil => simpa using hfirst
    | @cons text' part' texts parts hsecond hrest =>
      intro rest more hends hmore
      have hcomma : EndsWord (',' :: (blanks.toList ++
          ((("," ++ blanks).intercalate (text' :: texts)).toList ++ rest))) := by
        simp [EndsWord]
      have hlater := hfirst _ _ hcomma
        (.word rfl (Nat.le_refl _) (.blanks hblanks (ih rest more hends hmore)))
      rw [String.intercalate_cons_cons, List.intercalate_cons_cons]
      simpa using hlater

/-- A bracket that opens and the one that closes, and the tokens that they are. -/
structure Brackets (opening closing : String) (first last : Token) : Prop where
  opens : ∀ rest more, Spells rest more → Spells (opening.toList ++ rest) (first :: more)
  closes : ∀ rest more, Spells rest more → Spells (closing.toList ++ rest) (last :: more)
  ends : ∀ rest, EndsWord (closing.toList ++ rest)

theorem brackets_array : Brackets "[" "]" .openBracket .closeBracket where
  opens _ _ h := .word rfl (Nat.le_refl _) h
  closes _ _ h := .word rfl (Nat.le_refl _) h
  ends _ := by simp [EndsWord]

theorem brackets_object : Brackets "\x7b" "\x7d" .openBrace .closeBrace where
  opens _ _ h := .word rfl (Nat.le_refl _) h
  closes _ _ h := .word rfl (Nat.le_refl _) h
  ends _ := by simp [EndsWord]

/-- A text between brackets, with blanks on either side or not. -/
theorem Brackets.stands {opening closing : String} {first last : Token}
    (hb : Brackets opening closing first last) (front back : String)
    (hfront : ∀ c ∈ front.toList, isBlank c = true) (hback : ∀ c ∈ back.toList, isBlank c = true)
    {body : String} {inner : List Token} (h : Stands body inner) :
    Stands (opening ++ front ++ body ++ back ++ closing) (first :: (inner ++ [last])) := by
  intro rest more _ hmore
  have hinner := h _ _ (endsWord_blanks_append hback (hb.ends rest))
    (.blanks hback (hb.closes rest more hmore))
  simpa using hb.opens _ _ (.blanks hfront hinner)

/-- The name of a member, a colon, with blanks after it or not, and the value. -/
theorem stands_member (name blanks : String) (hblanks : ∀ c ∈ blanks.toList, isBlank c = true)
    {text : String} {inner : List Token} (h : Stands text inner) :
    Stands (quote name ++ (":" ++ blanks) ++ text) (.str (some name) :: .colon :: inner) := by
  intro rest more hends hmore
  have hvalue : Spells (':' :: (blanks.toList ++ (text.toList ++ rest)))
      (.colon :: (inner ++ more)) :=
    .word rfl (Nat.le_refl _) (.blanks hblanks (h rest more hends hmore))
  simpa using spells_quote name hvalue

/-! ### Values -/

mutual

/-- The words of a value. -/
def words : Json → List Token
  | .null => [.null]
  | .bool value => [.bool value]
  | .num n => n.literal?.toList.map .num
  | .str text => [.str (some text)]
  | .arr items =>
    .openBracket :: ([.comma].intercalate (wordsOfItems items) ++ [.closeBracket])
  | .obj members =>
    .openBrace :: ([.comma].intercalate (wordsOfMembers members) ++ [.closeBrace])

/-- The words of all items. -/
def wordsOfItems : List Json → List (List Token)
  | [] => []
  | item :: rest => item.words :: wordsOfItems rest

/-- The words of all members. -/
def wordsOfMembers : List (String × Json) → List (List Token)
  | [] => []
  | (name, value) :: rest =>
    (.str (some name) :: .colon :: value.words) :: wordsOfMembers rest

end

theorem wordsOfItems_eq (items : List Json) : wordsOfItems items = items.map words := by
  induction items with
  | nil => rfl
  | cons item rest ih => rw [wordsOfItems, ih, List.map_cons]

theorem wordsOfMembers_eq (members : Members) :
    wordsOfMembers members =
      members.map fun member => .str (some member.1) :: .colon :: member.2.words := by
  induction members with
  | nil => rfl
  | cons member rest ih => rw [wordsOfMembers, ih, List.map_cons]

theorem compactItems_eq (items : List Json) : compactItems items = items.map compact := by
  induction items with
  | nil => rfl
  | cons item rest ih => rw [compactItems, ih, List.map_cons]

theorem compactMembers_eq (members : Members) :
    compactMembers members =
      members.map fun member => quote member.1 ++ ":" ++ member.2.compact := by
  induction members with
  | nil => rfl
  | cons member rest ih => rw [compactMembers, ih, List.map_cons]

theorem prettyItems_eq (level : Nat) (items : List Json) :
    prettyItems level items = items.map (prettyAt level) := by
  induction items with
  | nil => rfl
  | cons item rest ih => rw [prettyItems, ih, List.map_cons]

theorem prettyMembers_eq (level : Nat) (members : Members) :
    prettyMembers level members =
      members.map fun member => quote member.1 ++ ": " ++ member.2.prettyAt level := by
  induction members with
  | nil => rfl
  | cons member rest ih => rw [prettyMembers, ih, List.map_cons]

/-- The numbers of a value are read from how they are printed, and there are at most so many arrays
and objects inside one another. -/
inductive Printable : Nat → Json → Prop
  | null {depth : Nat} : Printable depth .null
  | bool {depth : Nat} (value : Bool) : Printable depth (.bool value)
  | num {depth : Nat} {n : Number} (h : n.Readable) : Printable depth (.num n)
  | str {depth : Nat} (text : String) : Printable depth (.str text)
  | arr {depth : Nat} {items : List Json} (h : ∀ item ∈ items, Printable depth item) :
      Printable (depth + 1) (.arr items)
  | obj {depth : Nat} {members : List (String × Json)}
      (h : ∀ member ∈ members, Printable depth member.2) : Printable (depth + 1) (.obj members)

theorem stands_null : Stands "null" [.null] :=
  fun rest _ _ hmore => .word rfl (Nat.le_add_right rest.length 3) hmore

theorem stands_bool (value : Bool) : Stands (bool value).compact [.bool value] := by
  intro rest more _ hmore
  cases value with
  | true => exact .word rfl (Nat.le_add_right rest.length 3) hmore
  | false => exact .word rfl (Nat.le_add_right rest.length 4) hmore

theorem stands_str (text : String) : Stands (quote text) [.str (some text)] :=
  fun _ _ _ hmore => spells_quote text hmore

theorem Number.Readable.stands {n : Number} (h : n.Readable) :
    Stands n.text (n.literal?.toList.map .num) := by
  obtain ⟨literal, hliteral, -⟩ := Option.bind_eq_some_iff.mp h
  rw [hliteral]
  exact stands_text hliteral

theorem forall₂_stands {α : Type} {text : α → String} {part : α → List Token} {xs : List α}
    (h : ∀ x ∈ xs, Stands (text x) (part x)) : List.Forall₂ Stands (xs.map text) (xs.map part) := by
  rw [List.forall₂_map_left_iff, List.forall₂_map_right_iff, List.forall₂_same]
  exact h

variable {depth : Nat} {value : Json}

/-- **A value on one line** stands for its words. -/
theorem Printable.stands_compact (h : value.Printable depth) :
    Stands value.compact value.words := by
  induction h with
  | null => exact stands_null
  | bool value => exact stands_bool value
  | num h => exact h.stands
  | str text => exact stands_str text
  | arr _ ih =>
    rw [compact, words, compactItems_eq, wordsOfItems_eq]
    have hlist := stands_intercalate "" (by simp) (forall₂_stands ih)
    simpa using brackets_array.stands "" "" (by simp) (by simp) hlist
  | @obj depth members _ ih =>
    rw [compact, words, compactMembers_eq, wordsOfMembers_eq]
    have hmembers : ∀ member ∈ members, Stands (quote member.1 ++ ":" ++ member.2.compact)
        (.str (some member.1) :: .colon :: member.2.words) := by
      intro member hmember
      simpa using stands_member member.1 "" (by simp) (ih member hmember)
    have hlist := stands_intercalate "" (by simp) (forall₂_stands hmembers)
    simpa using brackets_object.stands "" "" (by simp) (by simp) hlist

theorem isBlank_lineBreak (level : Nat) : ∀ c ∈ (lineBreak level).toList, isBlank c = true := by
  simp [lineBreak, isBlank]

/-- The parts of a block stand on lines of their own; there may be none. -/
theorem Brackets.stands_block {opening closing : String} {first last : Token}
    (hb : Brackets opening closing first last) (level : Nat) {texts : List String}
    {parts : List (List Token)} (h : List.Forall₂ Stands texts parts) :
    Stands (block opening closing level texts)
      (first :: ([.comma].intercalate parts ++ [last])) := by
  cases h with
  | nil =>
    rw [block]
    simpa using hb.stands "" "" (by simp) (by simp) (stands_intercalate "" (by simp) .nil)
  | cons hfirst hrest =>
    exact hb.stands _ _ (isBlank_lineBreak (level + 1)) (isBlank_lineBreak level)
      (stands_intercalate _ (isBlank_lineBreak (level + 1)) (.cons hfirst hrest))

/-- **A value laid out over lines** stands for the same words. -/
theorem Printable.stands_prettyAt (h : value.Printable depth) (level : Nat) :
    Stands (value.prettyAt level) value.words := by
  induction h generalizing level with
  | null => exact stands_null
  | bool value =>
    cases value with
    | true => exact stands_bool true
    | false => exact stands_bool false
  | num h => exact h.stands
  | str text => exact stands_str text
  | arr _ ih =>
    rw [prettyAt, words, prettyItems_eq, wordsOfItems_eq]
    exact brackets_array.stands_block level (forall₂_stands fun item hitem => ih item hitem _)
  | @obj depth members _ ih =>
    rw [prettyAt, words, prettyMembers_eq, wordsOfMembers_eq]
    have hmembers : ∀ member ∈ members,
        Stands (quote member.1 ++ ": " ++ member.2.prettyAt (level + 1))
          (.str (some member.1) :: .colon :: member.2.words) := fun member hmember =>
      stands_member member.1 " " (by simp [isBlank]) (ih member hmember (level + 1))
    exact brackets_object.stands_block level (forall₂_stands hmembers)

end Json

end JoinPlan
