import JoinPlan.Json.Printer
import JoinPlan.Json.Token
import Mathlib.Data.List.Basic

/-!
# Printed words are read back

Punctuation and the names of the constants are read as what they are. The other words take an
argument.

A text stands between quotes, with some of its characters escaped. None of them is mistaken for the
closing quote, and each is read as the one it was. No character is half of a surrogate pair, so the
code units that are read make up the same characters again.

A number has no end of its own. It goes on as long as there are digits, and after them a point or
an exponent might follow. So a number that is read from a text on its own is read the same before
anything that no number goes on with, such as a blank, a comma or a closing bracket.

## Main definitions

* `Json.EndsWord`: a word may end before this.
* `Json.StopsAtEnd`: a scanner reads as if nothing came after that.

## Main results

* `Json.quotedUnits_escapeChar`, `Json.decodeUnits_map_toNat`: characters between quotes.
* `Json.token?_quote`: texts are read back.
* `Json.stopsAtEnd_unsignedLiteral?`: a number is read up to its end.
* `Json.token?_append_of_num`: numbers are read before anything that ends a word.
-/

namespace JoinPlan

namespace Json

variable {c : Char} {rest more : List Char}

/-! ### Texts between quotes -/

theorem hexDigit?_hexDigitChar {n : Nat} (h : n < 16) : hexDigit? (hexDigitChar n) = some n := by
  have hall : ∀ n < 16, hexDigit? (hexDigitChar n) = some n := by decide
  exact hall n h

theorem quotedUnits_cons_of_ne (acc : List Nat) (hquote : c ≠ '"') (hslash : c ≠ '\\')
    (hcontrol : ¬ c.toNat < 0x20) (rest : List Char) :
    quotedUnits acc (c :: rest) = quotedUnits (c.toNat :: acc) rest := by
  rw [quotedUnits]
  · rw [if_neg (by simp [hslash, hcontrol])]
  · exact hquote
  · exact fun _ _ _ _ _ h => absurd h hslash
  · exact fun _ _ h => absurd h hslash

/-- Every character is read from how it stands inside quotes. -/
theorem quotedUnits_escapeChar (acc : List Nat) (c : Char) (rest : List Char) :
    quotedUnits acc (escapeChar c ++ rest) = quotedUnits (c.toNat :: acc) rest := by
  unfold escapeChar
  split
  case h_8 hquote hslash _ _ _ _ _ =>
    split_ifs with hcontrol
    · have hhigh : c.toNat / 16 < 16 := by omega
      have hlow : c.toNat % 16 < 16 := by omega
      have hzero : hexDigit? '0' = some 0 := by decide
      have hunit : hexUnit? '0' '0' (hexDigitChar (c.toNat / 16)) (hexDigitChar (c.toNat % 16)) =
          some c.toNat := by
        simp only [hexUnit?, hzero, hexDigit?_hexDigitChar hhigh, hexDigit?_hexDigitChar hlow]
        exact congrArg some (by omega)
      simp only [List.cons_append, List.nil_append, quotedUnits, hunit]
    · exact quotedUnits_cons_of_ne acc hquote hslash hcontrol rest
  all_goals rfl

theorem quotedUnits_flatMap_escapeChar (acc : List Nat) (cs rest : List Char) :
    quotedUnits acc (cs.flatMap escapeChar ++ '"' :: rest) =
      some ((cs.map Char.toNat).reverse ++ acc, rest) := by
  induction cs generalizing acc with
  | nil => rfl
  | cons c cs ih =>
    rw [List.flatMap_cons, List.append_assoc, quotedUnits_escapeChar, ih, List.map_cons,
      List.reverse_cons, List.append_assoc, List.singleton_append]

/-- No character is half of a surrogate pair. -/
theorem decodeUnits_map_toNat (cs : List Char) : decodeUnits (cs.map Char.toNat) = some cs := by
  have hvalid : ∀ c : Char, ¬(0xD800 ≤ c.toNat ∧ c.toNat < 0xE000) := by
    intro c
    have hscalar : c.toNat < 0xD800 ∨ 0xDFFF < c.toNat ∧ c.toNat < 0x110000 := c.valid
    omega
  induction cs with
  | nil => rfl
  | cons c cs ih =>
    have hhigh : ¬(0xD800 ≤ c.toNat ∧ c.toNat < 0xDC00) := by have := hvalid c; omega
    have hlow : ¬(0xDC00 ≤ c.toNat ∧ c.toNat < 0xE000) := by have := hvalid c; omega
    cases cs with
    | nil => rw [List.map_singleton, decodeUnits, if_neg (hvalid c), Char.ofNat_toNat]
    | cons d cs =>
      rw [List.map_cons, List.map_cons, decodeUnits, ← List.map_cons, ih, if_neg hhigh,
        if_neg hlow, Option.map_some, Char.ofNat_toNat]

/-- **A text is read from between its quotes**, whatever comes after them. -/
theorem token?_quote (text : String) (rest : List Char) :
    token? ((quote text).toList ++ rest) = some (.str (some text), rest) := by
  have hquote : (quote text).toList ++ rest =
      '"' :: (text.toList.flatMap escapeChar ++ '"' :: rest) := by
    simp [quote]
  have hunits : quotedUnits [] (text.toList.flatMap escapeChar ++ '"' :: rest) =
      some ((text.toList.map Char.toNat).reverse, rest) := by
    rw [quotedUnits_flatMap_escapeChar, List.append_nil]
  rw [hquote, token?, hunits, Option.map_some]
  dsimp only
  rw [List.reverse_reverse, decodeUnits_map_toNat, Option.map_some, String.ofList_toList]

/-! ### Numbers -/

/-- A word may end before this: before nothing, a blank, or what separates or closes. -/
def EndsWord (rest : List Char) : Prop :=
  ∀ c ∈ rest.head?, isBlank c = true ∨ c ∈ [',', ']', '}']

theorem EndsWord.ne (h : EndsWord (c :: rest)) {other : Char}
    (hother : ¬(isBlank other = true ∨ other ∈ [',', ']', '}'])) : c ≠ other := by
  rintro rfl
  exact hother (h c rfl)

theorem EndsWord.isDigit_eq_false (h : EndsWord (c :: rest)) : c.isDigit = false := by
  have hc := h c rfl
  simp only [isBlank, Bool.or_eq_true, decide_eq_true_eq, List.mem_cons, List.not_mem_nil,
    or_false] at hc
  rcases hc with (((rfl | rfl) | rfl) | rfl) | rfl | rfl | rfl <;> rfl

theorem leadingDigits_append (h : EndsWord rest) (cs : List Char) :
    leadingDigits (cs ++ rest) = ((leadingDigits cs).1, (leadingDigits cs).2 ++ rest) := by
  have hsplit : (cs ++ rest).takeWhile Char.isDigit = cs.takeWhile Char.isDigit ∧
      (cs ++ rest).dropWhile Char.isDigit = cs.dropWhile Char.isDigit ++ rest := by
    induction cs with
    | nil =>
      cases rest with
      | nil => exact ⟨rfl, rfl⟩
      | cons d rest => simp [h.isDigit_eq_false]
    | cons c cs ih => cases hc : c.isDigit <;> simp [hc, ih]
  rw [leadingDigits, leadingDigits, hsplit.1, hsplit.2]

/-- A scanner reads a text as if nothing came after it, if a word may end there. -/
def StopsAtEnd {α : Type} (scan : List Char → Option (α × List Char)) : Prop :=
  ∀ cs rest, EndsWord rest →
    scan (cs ++ rest) = (scan cs).map fun (found, more) => (found, more ++ rest)

theorem StopsAtEnd.bind {α β : Type} {scan : List Char → Option (α × List Char)}
    {next : α → List Char → Option (β × List Char)} (h : StopsAtEnd scan)
    (hnext : ∀ found, StopsAtEnd (next found)) :
    StopsAtEnd fun cs => (scan cs).bind fun (found, more) => next found more := by
  intro cs rest hrest
  dsimp only
  rw [h cs rest hrest]
  cases scan cs with
  | none => rfl
  | some result => exact hnext result.1 result.2 rest hrest

theorem stopsAtEnd_fraction? : StopsAtEnd fraction? := by
  intro cs rest hrest
  cases cs with
  | nil =>
    cases rest with
    | nil => rfl
    | cons d rest =>
      have hd : d ≠ '.' := hrest.ne (by decide)
      simp [fraction?, hd]
  | cons c cs =>
    by_cases hc : c = '.'
    · subst hc
      rw [List.cons_append, fraction?, fraction?, leadingDigits_append hrest]
      rcases leadingDigits cs with ⟨_ | ⟨d, ds⟩, more⟩ <;> rfl
    · simp [fraction?, hc]

theorem stopsAtEnd_unsignedExponent? (negative : Bool) :
    StopsAtEnd (unsignedExponent? negative) := by
  intro cs rest hrest
  rw [unsignedExponent?, unsignedExponent?, leadingDigits_append hrest]
  rcases leadingDigits cs with ⟨_ | ⟨d, ds⟩, more⟩ <;> rfl

/-- The digits of an exponent begin after the sign, if there is one. -/
theorem stopsAtEnd_exponent?_of_mark {mark : Char} (hmark : mark = 'e' ∨ mark = 'E') :
    StopsAtEnd fun cs => exponent? (mark :: cs) := by
  have hplain : ∀ cs, (∀ c ∈ cs.head?, c ≠ '+' ∧ c ≠ '-') →
      exponent? (mark :: cs) = unsignedExponent? false cs := by
    intro cs hcs
    rcases hmark with rfl | rfl <;> cases cs <;> simp_all [exponent?]
  intro cs rest hrest
  rcases cs with - | ⟨c, cs⟩
  · have hends : ∀ c ∈ rest.head?, c ≠ '+' ∧ c ≠ '-' := by
      intro c hc
      obtain ⟨more, rfl⟩ := List.head?_eq_some_iff.mp hc
      exact ⟨hrest.ne (by decide), hrest.ne (by decide)⟩
    dsimp only
    rw [List.nil_append, hplain rest hends, hplain [] (by simp)]
    exact stopsAtEnd_unsignedExponent? false [] rest hrest
  by_cases hplus : c = '+'
  · subst hplus
    rcases hmark with rfl | rfl <;> exact stopsAtEnd_unsignedExponent? false cs rest hrest
  by_cases hminus : c = '-'
  · subst hminus
    rcases hmark with rfl | rfl <;> exact stopsAtEnd_unsignedExponent? true cs rest hrest
  have hhead : ∀ more, ∀ d ∈ (c :: more).head?, d ≠ '+' ∧ d ≠ '-' := by
    rintro more _ ⟨⟩
    exact ⟨hplus, hminus⟩
  dsimp only
  rw [List.cons_append, hplain _ (hhead _), hplain _ (hhead _)]
  exact stopsAtEnd_unsignedExponent? false (c :: cs) rest hrest

theorem stopsAtEnd_exponent? : StopsAtEnd exponent? := by
  intro cs rest hrest
  cases cs with
  | nil =>
    cases rest with
    | nil => rfl
    | cons d rest =>
      have hmark : ¬(d = 'e' ∨ d = 'E') :=
        not_or.mpr ⟨hrest.ne (by decide), hrest.ne (by decide)⟩
      simp [exponent?, hmark]
  | cons c cs =>
    by_cases hmark : c = 'e' ∨ c = 'E'
    · exact stopsAtEnd_exponent?_of_mark hmark cs rest hrest
    · simp [exponent?, hmark]

/-- The digits of a number before its point. There is at least one of them, and zero has no other
digit after it. -/
def wholePart? (cs : List Char) : Option (List Nat × List Char) :=
  match leadingDigits cs with
  | ([], _) => none
  | (0 :: _ :: _, _) => none
  | (whole, rest) => some (whole, rest)

theorem stopsAtEnd_wholePart? : StopsAtEnd wholePart? := by
  intro cs rest hrest
  rw [wholePart?, wholePart?, leadingDigits_append hrest]
  rcases leadingDigits cs with ⟨_ | ⟨_ | d, _ | ⟨d', ds⟩⟩, more⟩ <;> rfl

theorem unsignedLiteral?_eq (negative : Bool) :
    unsignedLiteral? negative = fun cs =>
      (wholePart? cs).bind fun (whole, rest) => (fraction? rest).bind fun (fraction, rest) =>
        (exponent? rest).bind fun (exponent, rest) =>
          some (⟨negative, whole, fraction, exponent⟩, rest) := by
  funext cs
  rw [unsignedLiteral?, wholePart?]
  rcases leadingDigits cs with ⟨_ | ⟨_ | d, _ | ⟨d', ds⟩⟩, more⟩ <;> rfl

theorem stopsAtEnd_some {α : Type} (found : α) : StopsAtEnd fun cs => some (found, cs) :=
  fun _ _ _ => rfl

/-- **A number is read up to its end**, as if nothing came after it. -/
theorem stopsAtEnd_unsignedLiteral? (negative : Bool) :
    StopsAtEnd (unsignedLiteral? negative) := by
  rw [unsignedLiteral?_eq]
  exact stopsAtEnd_wholePart?.bind fun whole => stopsAtEnd_fraction?.bind fun fraction =>
    stopsAtEnd_exponent?.bind fun exponent =>
      stopsAtEnd_some (Literal.mk negative whole fraction exponent)

theorem token?_of_isDigit (hc : c.isDigit = true) (cs : List Char) :
    token? (c :: cs) =
      (unsignedLiteral? false (c :: cs)).map fun (literal, more) => (.num literal, more) := by
  have hne : ∀ other : Char, other.isDigit = false → ∀ cs more : List Char,
      c :: cs ≠ other :: more := by
    intro other hother cs more hsame
    rw [(List.cons.inj hsame).1, hother] at hc
    cases hc
  rw [token?]
  all_goals exact fun _ => hne _ rfl _ _

theorem unsignedLiteral?_of_not_isDigit (hc : c.isDigit = false) (negative : Bool)
    (cs : List Char) : unsignedLiteral? negative (c :: cs) = none := by
  simp [unsignedLiteral?, leadingDigits, hc]

theorem token?_of_isBlank (hc : isBlank c = true) (cs : List Char) : token? (c :: cs) = none := by
  simp only [isBlank, Bool.or_eq_true, decide_eq_true_eq] at hc
  rcases hc with ((rfl | rfl) | rfl) | rfl <;> exact rfl

/-- A token that is a number begins with a minus sign or a digit. -/
theorem token?_eq_num {cs : List Char} {literal : Literal}
    (h : token? cs = some (.num literal, more)) :
    (∃ digits, cs = '-' :: digits ∧ unsignedLiteral? true digits = some (literal, more)) ∨
      ∃ c digits, cs = c :: digits ∧ c.isDigit = true ∧
        unsignedLiteral? false cs = some (literal, more) := by
  unfold token? at h
  split at h
  case h_11 digits =>
    obtain ⟨found, hfound, hsame⟩ := Option.map_eq_some_iff.mp h
    cases hsame
    exact .inl ⟨digits, rfl, hfound⟩
  case h_12 =>
    obtain ⟨found, hfound, hsame⟩ := Option.map_eq_some_iff.mp h
    cases hsame
    cases cs with
    | nil => cases hfound
    | cons c digits =>
      cases hc : c.isDigit with
      | true => exact .inr ⟨c, digits, rfl, hc, hfound⟩
      | false =>
        rw [unsignedLiteral?_of_not_isDigit hc] at hfound
        cases hfound
  case h_10 =>
    obtain ⟨found, hfound, hsame⟩ := Option.map_eq_some_iff.mp h
    cases hsame
  all_goals cases h

/-- A number that is read from a text on its own is read from it wherever a word may end. -/
theorem token?_append_of_num {cs : List Char} {literal : Literal}
    (hread : token? cs = some (.num literal, [])) (h : EndsWord rest) :
    token? (cs ++ rest) = some (.num literal, rest) := by
  rcases token?_eq_num hread with ⟨digits, rfl, hdigits⟩ | ⟨c, digits, rfl, hc, hdigits⟩
  · have hmore : unsignedLiteral? true (digits ++ rest) = some (literal, rest) := by
      rw [stopsAtEnd_unsignedLiteral? _ _ _ h, hdigits]
      rfl
    rw [List.cons_append, token?, hmore, Option.map_some]
  · have hmore : unsignedLiteral? false (c :: digits ++ rest) = some (literal, rest) := by
      rw [stopsAtEnd_unsignedLiteral? _ _ _ h, hdigits]
      rfl
    rw [List.cons_append, token?_of_isDigit hc, ← List.cons_append, hmore, Option.map_some]

end Json

end JoinPlan
