import GoSchema.Proofs.FieldName.Words
import GoSchema.Proofs.Source.Spelling
import GoSchema.Proofs.Text.Letters

/-! # Keys that name a field

A name is an identifier when its key holds nothing but letters, digits and hyphens, does not begin
with a digit, and has each hyphen right before an ASCII letter, which makes it disappear. The other
separator is a letter itself, so it may stand anywhere.
-/

namespace GoSchema.FieldName

open Source

theorem isWordChar_iff {c : Char} : isWordChar c = true ↔ isLetter c = true ∨ isDigit c = true :=
  Bool.or_eq_true_iff

theorem isLetter_of_isAlpha {c : Char} (letter : c.isAlpha = true) : isLetter c = true :=
  Bool.or_eq_true_iff.mpr (.inr (Text.isLetter_of_isAlpha letter))

theorem isLetter_toUpper {c : Char} (letter : c.isAlpha = true) : isLetter c.toUpper = true :=
  isLetter_of_isAlpha ((isAlpha_toUpper c).trans letter)

theorem isWordChar_hyphen : isWordChar '-' = false := by
  decide

/-! ## Characters of a name -/

/-- Letters, digits and hyphens, with each hyphen right before an ASCII letter. -/
structure Fits (cs : List Char) : Prop where
  chars : ∀ c ∈ cs, isLetter c = true ∨ isDigit c = true ∨ c = '-'
  hyphens : ∀ front rest, cs = front ++ '-' :: rest → rest.head?.any Char.isAlpha = true

theorem fits_nil : Fits [] where
  chars := List.forall_mem_nil _
  hyphens front rest cut := by cases front <;> cases cut

theorem fits_cons {c : Char} {cs : List Char} :
    Fits (c :: cs) ↔
      (isWordChar c = true ∨ c = '-' ∧ cs.head?.any Char.isAlpha = true) ∧ Fits cs := by
  constructor
  · intro fits
    refine ⟨?_, fun d member => fits.chars d (List.mem_cons_of_mem c member), ?_⟩
    · rcases fits.chars c List.mem_cons_self with letter | digit | rfl
      · exact .inl (isWordChar_iff.mpr (.inl letter))
      · exact .inl (isWordChar_iff.mpr (.inr digit))
      · exact .inr ⟨rfl, fits.hyphens [] cs rfl⟩
    · rintro front rest rfl
      exact fits.hyphens (c :: front) rest rfl
  · intro given
    obtain ⟨here, fits⟩ := given
    refine ⟨List.forall_mem_cons.mpr ⟨?_, fits.chars⟩, ?_⟩
    · rw [← or_assoc, ← isWordChar_iff]
      exact here.imp_right And.left
    · intro front rest cut
      cases front with
      | nil =>
          obtain ⟨rfl, rfl⟩ := List.cons.inj cut
          rw [isWordChar_hyphen] at here
          exact (here.resolve_left Bool.false_ne_true).2
      | cons d front => exact fits.hyphens front rest (List.cons.inj cut).2

theorem fits_of_isAlpha {c : Char} (letter : c.isAlpha = true) (cs : List Char) :
    Fits (c :: cs) ↔ Fits cs := by
  rw [fits_cons, isWordChar_iff]
  exact and_iff_right (.inl (.inl (isLetter_of_isAlpha letter)))

theorem forall_mem_joinWords {cs : List Char} :
    (∀ c ∈ joinWords cs, isWordChar c = true) ↔ Fits cs := by
  induction cs using joinWords.induct with
  | case1 c d rest joined ih =>
      obtain ⟨separator, letter⟩ := Bool.and_eq_true_iff.mp joined
      have here : isWordChar c = true ∨ c = '-' ∧ (d :: rest).head?.any Char.isAlpha = true := by
        rcases Bool.or_eq_true_iff.mp separator with same | same
        · rw [beq_iff_eq.mp same]
          exact .inl (by decide)
        · exact .inr ⟨beq_iff_eq.mp same, letter⟩
      rw [joinWords_separated separator letter, List.forall_mem_cons, ih, fits_cons,
        fits_of_isAlpha letter, and_iff_right here, isWordChar_iff]
      exact and_iff_right (.inl (isLetter_toUpper letter))
  | case2 c d rest kept ih =>
      have apart : ¬(c = '-' ∧ (d :: rest).head?.any Char.isAlpha = true) := by
        rintro ⟨rfl, letter⟩
        exact kept letter
      rw [joinWords_kept kept, List.forall_mem_cons, ih, @fits_cons c, or_iff_left apart]
  | case3 c =>
      have apart : ¬(c = '-' ∧ ([] : List Char).head?.any Char.isAlpha = true) :=
        fun given => Bool.false_ne_true given.2
      rw [joinWords, List.forall_mem_singleton, fits_cons, or_iff_left apart]
      exact (and_iff_left fits_nil).symm
  | case4 => exact ⟨fun _ => fits_nil, fun _ => List.forall_mem_nil _⟩

theorem forall_mem_ofChars {cs : List Char} :
    (∀ c ∈ ofChars cs, isWordChar c = true) ↔ Fits cs := by
  cases cs with
  | nil => exact @forall_mem_joinWords []
  | cons c cs =>
      cases first : c.isAlpha with
      | true =>
          rw [ofChars_letter first, List.forall_mem_cons, forall_mem_joinWords,
            fits_of_isAlpha first, isWordChar_iff]
          exact and_iff_right (.inl (isLetter_toUpper first))
      | false => rw [ofChars_of_not_letter first, forall_mem_joinWords]

/-! ## The first character -/

/-- A name begins with the first character of its key or with a capital letter. -/
theorem exists_ofChars_cons (c : Char) (cs : List Char) :
    ∃ d more, ofChars (c :: cs) = d :: more ∧
      (d = c ∨ d.isAlpha = true ∧ (c.isAlpha = true ∨ isSeparator c = true)) := by
  cases first : c.isAlpha with
  | true =>
      have upper := (isAlpha_toUpper c).trans first
      exact ⟨_, _, ofChars_letter first cs, .inr ⟨upper, .inl rfl⟩⟩
  | false =>
      rw [ofChars_of_not_letter first]
      cases cs with
      | nil => exact ⟨c, [], rfl, .inl rfl⟩
      | cons d rest =>
          by_cases joined : (isSeparator c && d.isAlpha) = true
          · obtain ⟨separator, letter⟩ := Bool.and_eq_true_iff.mp joined
            have upper := (isAlpha_toUpper d).trans letter
            exact ⟨_, _, joinWords_separated separator letter rest, .inr ⟨upper, .inr separator⟩⟩
          · exact ⟨_, _, joinWords_kept joined rest, .inl rfl⟩

theorem isDigit_of_isSeparator {c : Char} (separator : isSeparator c = true) :
    isDigit c = false := by
  rcases Bool.or_eq_true_iff.mp separator with same | same <;> rw [beq_iff_eq.mp same] <;> decide

theorem isLetter_head_iff {c d : Char} {cs more : List Char} (fits : Fits (c :: cs))
    (name : ofChars (c :: cs) = d :: more) : isLetter d = true ↔ isDigit c = false := by
  obtain ⟨d', more', name', first⟩ := exists_ofChars_cons c cs
  obtain ⟨rfl, rfl⟩ := List.cons.inj (name.symm.trans name')
  rcases first with rfl | ⟨letter, other⟩
  · have word : isWordChar d = true := forall_mem_ofChars.mpr fits d (by simp [name])
    constructor
    · exact isDigit_of_isLetter
    · intro other
      exact (isWordChar_iff.mp word).resolve_right (by simp [other])
  · refine iff_of_true (isLetter_of_isAlpha letter) ?_
    rcases other with letter' | separator
    · exact isDigit_of_isLetter (isLetter_of_isAlpha letter')
    · exact isDigit_of_isSeparator separator

/-! ## Keys -/

theorem isWord_ofChars_iff (cs : List Char) :
    IsWord (String.ofList (ofChars cs)) ↔
      cs ≠ [] ∧ Fits cs ∧ cs.head?.any isDigit = false := by
  rw [IsWord, String.toList_ofList]
  cases cs with
  | nil =>
      refine iff_of_false ?_ fun given => given.1 rfl
      rintro ⟨d, more, name, -⟩
      cases name
  | cons c cs =>
      obtain ⟨d, more, name, -⟩ := exists_ofChars_cons c cs
      rw [and_iff_right (List.cons_ne_nil c cs), ← forall_mem_ofChars, name]
      constructor
      · rintro ⟨d', more', name', letter, inside⟩
        obtain ⟨rfl, rfl⟩ := List.cons.inj name'
        have word : ∀ e ∈ d :: more, isWordChar e = true :=
          List.forall_mem_cons.mpr ⟨isWordChar_iff.mpr (.inl letter), inside⟩
        have fits : Fits (c :: cs) := forall_mem_ofChars.mp (name ▸ word)
        exact ⟨word, (isLetter_head_iff fits name).mp letter⟩
      · rintro ⟨word, solid⟩
        have fits : Fits (c :: cs) := forall_mem_ofChars.mp (name ▸ word)
        exact ⟨d, more, rfl, (isLetter_head_iff fits name).mpr solid,
          (List.forall_mem_cons.mp word).2⟩

/-- Exactly these keys name a field. Whatever the key is, its name begins with no lower-case letter
of ASCII and is no keyword. -/
theorem isWord_ofKey_iff (key : String) :
    (IsWord (ofKey key) ↔
        key ≠ "" ∧ Fits key.toList ∧ key.toList.head?.any isDigit = false) ∧
      (ofKey key).toList.head?.any Char.isLower = false ∧
      isKeyword (ofKey key) = false := by
  refine ⟨?_, ?_, not_isKeyword_ofKey key⟩
  · rw [ofKey, isWord_ofChars_iff, Ne, String.toList_eq_nil_iff]
  · rw [ofKey, String.toList_ofList, ← Bool.not_eq_true, Option.any_eq_true]
    rintro ⟨c, head, lower⟩
    rw [ofChars_head head] at lower
    cases lower

/-- Hyphens at the borders, next to each other and before a digit, and a digit of another script. -/
example :
    ["-a_1", "_-b", "größe", "_"].all (fun key => decide (IsWord (ofKey key))) = true ∧
      ["a-", "a--b", "_-1", "٣a", ""].any (fun key => decide (IsWord (ofKey key))) = false := by
  decide +kernel

end GoSchema.FieldName
