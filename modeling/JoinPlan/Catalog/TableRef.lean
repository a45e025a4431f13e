/-!
# Table references

A table is named by its schema and its own name, written `schema.table`. The pair is what
identifies it: two references may be written alike and still differ, for a name may hold a dot.

## Main definitions

* `TableRef`, `TableRef.text`, `TableRef.parse?`: a reference, its text, and reading it. The text
  is cut at its first dot.
* `TableRef.le`: the order by schema, then by name, each by code points.

## Main results

* `TableRef.text_of_parse?`: reading loses nothing of the text.
* `TableRef.parse?_text`: a reference is read back from its text exactly when its schema is not
  empty and holds no dot, and its name is not empty.
* `TableRef.text_eq_iff`: when two references are written alike.
-/

namespace JoinPlan

/-- Two lists, each parted at some element, are the same if they are parted at the same place, or
one of them has the element once more where the other is parted. -/
theorem append_cons_eq_append_cons_iff {α : Type} {xs ys ds es : List α} {c : α} :
    xs ++ c :: ds = ys ++ c :: es ↔
      xs = ys ∧ ds = es ∨
        (∃ more, ys = xs ++ c :: more ∧ ds = more ++ c :: es) ∨
        ∃ more, xs = ys ++ c :: more ∧ es = more ++ c :: ds := by
  constructor
  · intro h
    rcases List.append_eq_append_iff.mp h with ⟨between, rfl, hrest⟩ | ⟨between, rfl, hrest⟩
    · cases between with
      | nil => exact .inl ⟨(List.append_nil _).symm, (List.cons.inj hrest).2⟩
      | cons first more =>
        obtain ⟨rfl, rfl⟩ := List.cons.inj hrest
        exact .inr (.inl ⟨more, rfl, rfl⟩)
    · cases between with
      | nil => exact .inl ⟨List.append_nil _, (List.cons.inj hrest).2.symm⟩
      | cons first more =>
        obtain ⟨rfl, rfl⟩ := List.cons.inj hrest
        exact .inr (.inr ⟨more, rfl, rfl⟩)
  · rintro (⟨rfl, rfl⟩ | ⟨more, rfl, rfl⟩ | ⟨more, rfl, rfl⟩) <;> simp

/-- A table, named by its schema and its own name. -/
structure TableRef where
  schema : String
  table : String
  deriving DecidableEq, Hashable, Repr, Inhabited

namespace TableRef

/-- The text of a reference, `schema.table`. -/
def text (ref : TableRef) : String :=
  ref.schema ++ "." ++ ref.table

/-- Reads `schema.table`, cut at the first dot; neither half may be empty. -/
def parse? (text : String) : Option TableRef :=
  let schema := text.toList.takeWhile (· ≠ '.')
  match text.toList.dropWhile (· ≠ '.') with
  | [] => none
  | _ :: table =>
    if schema.isEmpty || table.isEmpty then none
    else some ⟨String.ofList schema, String.ofList table⟩

/-- References in ascending order: by schema, then by name, each by code points. -/
def le (a b : TableRef) : Bool :=
  a.schema < b.schema || (a.schema = b.schema && a.table ≤ b.table)

/-- The references in ascending order. -/
def sort (refs : List TableRef) : List TableRef :=
  refs.mergeSort le

/-- A list of references with something between any two of them. -/
def joinTexts (separator : String) (refs : List TableRef) : String :=
  separator.intercalate (refs.map text)

/-! ### Texts and references -/

theorem toList_text (ref : TableRef) :
    ref.text.toList = ref.schema.toList ++ '.' :: ref.table.toList := by
  simp [text]

/-- What was read is written as it was. -/
theorem text_of_parse? {text : String} {ref : TableRef} (h : parse? text = some ref) :
    ref.text = text := by
  unfold parse? at h
  split at h
  · cases h
  · rename_i c table heq
    dsimp only at h
    split at h
    · cases h
    · cases h
      have hc : c = '.' := by
        have := List.head?_dropWhile_not (· ≠ '.') text.toList
        rw [heq] at this
        simpa using this
      apply String.toList_inj.mp
      subst hc
      rw [toList_text, String.toList_ofList, String.toList_ofList, ← heq,
        List.takeWhile_append_dropWhile]

/-- A reference is read back from its text exactly when the first dot of the text is the one
between its halves and neither half is empty. -/
theorem parse?_text (ref : TableRef) :
    parse? ref.text = some ref ↔
      ref.schema ≠ "" ∧ '.' ∉ ref.schema.toList ∧ ref.table ≠ "" := by
  constructor
  · intro h
    unfold parse? at h
    split at h
    · cases h
    · rename_i c table heq
      dsimp only at h
      split at h
      · cases h
      · rename_i hne
        simp only [Bool.or_eq_true, List.isEmpty_iff, not_or] at hne
        obtain ⟨hs, ht⟩ := (TableRef.mk.injEq ..).mp (Option.some.inj h)
        refine ⟨fun h => hne.1 ?_, fun h => ?_, fun h => hne.2 ?_⟩
        · rw [h] at hs
          simpa using congrArg String.toList hs
        · rw [← hs, String.toList_ofList] at h
          simpa using List.all_eq_true.mp List.all_takeWhile _ h
        · rw [h] at ht
          simpa using congrArg String.toList ht
  · rintro ⟨h₁, h₂, h₃⟩
    have hp : ∀ c ∈ ref.schema.toList, decide (c ≠ '.') = true := by
      intro c hc
      have : c ≠ '.' := fun h => h₂ (by simpa [h] using hc)
      simpa using this
    have e₁ : ref.schema.toList ≠ [] := by simpa using h₁
    have e₂ : ref.table.toList ≠ [] := by simpa using h₃
    have ht : ref.text.toList.takeWhile (· ≠ '.') = ref.schema.toList := by
      rw [toList_text, List.takeWhile_append_of_pos hp]
      simp
    have hd : ref.text.toList.dropWhile (· ≠ '.') = '.' :: ref.table.toList := by
      rw [toList_text, List.dropWhile_append_of_pos hp]
      simp
    unfold parse?
    rw [ht, hd]
    simp [e₁, e₂]

/-- A reference is written like another one whose schema goes on behind a dot where the name of its
own table begins. -/
def Mimics (a b : TableRef) : Prop :=
  ∃ middle, b.schema = a.schema ++ "." ++ middle ∧ a.table = middle ++ "." ++ b.table

theorem Mimics.text_eq {a b : TableRef} (h : a.Mimics b) : a.text = b.text := by
  obtain ⟨middle, hschema, htable⟩ := h
  simp only [text, hschema, htable, String.append_assoc]

theorem Mimics.dot_mem {a b : TableRef} (h : a.Mimics b) : '.' ∈ b.schema.toList := by
  obtain ⟨middle, hschema, -⟩ := h
  simp [hschema]

theorem not_mimics_self (a : TableRef) : ¬ a.Mimics a := by
  rintro ⟨middle, hschema, -⟩
  have hlength := congrArg String.length hschema
  have hdot : ".".length = 1 := rfl
  rw [String.length_append, String.length_append] at hlength
  omega

/-- **When two references are written alike**: they are the same, or one of them mimics the
other. -/
theorem text_eq_iff {a b : TableRef} : a.text = b.text ↔ a = b ∨ a.Mimics b ∨ b.Mimics a := by
  have hmimics : ∀ {a b : TableRef} {middle : List Char},
      b.schema.toList = a.schema.toList ++ '.' :: middle →
      a.table.toList = middle ++ '.' :: b.table.toList → a.Mimics b := by
    intro a b middle hschema htable
    refine ⟨String.ofList middle, String.toList_inj.mp ?_, String.toList_inj.mp ?_⟩
    · simp [hschema]
    · simp [htable]
  constructor
  · intro h
    have hlists := congrArg String.toList h
    rw [toList_text, toList_text, append_cons_eq_append_cons_iff] at hlists
    rcases hlists with ⟨hschema, htable⟩ | ⟨middle, hschema, htable⟩ | ⟨middle, hschema, htable⟩
    · cases a
      cases b
      rw [mk.injEq]
      exact .inl ⟨String.toList_inj.mp hschema, String.toList_inj.mp htable⟩
    · exact .inr (.inl (hmimics hschema htable))
    · exact .inr (.inr (hmimics hschema htable))
  · rintro (rfl | h | h)
    · rfl
    · exact h.text_eq
    · exact h.text_eq.symm

end TableRef

end JoinPlan
