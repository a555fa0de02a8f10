import GoSchema.Proofs.Text.Letters
import GoSchema.Text.Blank

/-! # Trimming

No letter and no digit is a blank, so a text that begins and ends with tokens loses nothing but
the newline at its end.
-/

namespace GoSchema.Text

/-- Two properties of characters that no code point has both of. -/
def CodeRanges.Disjoint (one other : CodeRanges) : Prop :=
  ∀ a ∈ one, ∀ b ∈ other, a.2 < b.1 ∨ b.2 < a.1

instance (one other : CodeRanges) : Decidable (one.Disjoint other) :=
  inferInstanceAs (Decidable (∀ a ∈ one, ∀ b ∈ other, a.2 < b.1 ∨ b.2 < a.1))

theorem CodeRanges.Disjoint.not_contains {one other : CodeRanges} (disjoint : one.Disjoint other)
    {c : Char} (known : one.contains c = true) : other.contains c = false := by
  rw [← Bool.not_eq_true]
  intro both
  obtain ⟨a, here, inside⟩ := List.any_eq_true.mp known
  obtain ⟨b, there, inside'⟩ := List.any_eq_true.mp both
  simp only [Bool.and_eq_true, decide_eq_true_eq] at inside inside'
  have apart := disjoint a here b there
  omega

theorem letters_disjoint : letterRanges.Disjoint blankRanges := by
  decide +kernel

theorem digits_disjoint : decimalDigitRanges.Disjoint blankRanges := by
  decide +kernel

/-- Code points of the ASCII letters and digits. -/
def asciiWordRanges : CodeRanges :=
  [(0x30, 0x39), (0x41, 0x5A), (0x61, 0x7A)]

theorem ascii_disjoint : asciiWordRanges.Disjoint blankRanges := by
  decide

theorem ascii_contains {c : Char} (word : c.isAlpha = true ∨ c.isDigit = true) :
    asciiWordRanges.contains c = true := by
  have inside : (65 ≤ c.toNat ∧ c.toNat ≤ 90 ∨ 97 ≤ c.toNat ∧ c.toNat ≤ 122) ∨
      48 ≤ c.toNat ∧ c.toNat ≤ 57 :=
    word.imp toNat_of_isAlpha Char.isDigit_iff_toNat.mp
  simp only [CodeRanges.contains, asciiWordRanges, List.any_cons, List.any_nil, Bool.or_eq_true,
    Bool.and_eq_true, decide_eq_true_eq]
  omega

theorem isBlankChar_of_isWordChar {c : Char} (inside : Source.isWordChar c = true) :
    isBlankChar c = false := by
  simp only [Source.isWordChar, Source.isLetter, Source.isDigit, isLetter, isDecimalDigit,
    Bool.or_eq_true, beq_iff_eq] at inside
  rcases inside with (rfl | letter) | digit
  · decide
  · split at letter
    · exact ascii_disjoint.not_contains (ascii_contains (.inl letter))
    · exact letters_disjoint.not_contains letter
  · split at digit
    · exact ascii_disjoint.not_contains (ascii_contains (.inr digit))
    · exact digits_disjoint.not_contains digit

/-- A text that does not end with a blank. -/
def EndsSolid (text : String) : Prop :=
  ∃ cs c, text.toList = cs ++ [c] ∧ isBlankChar c = false

theorem EndsSolid.append {text : String} (ends : EndsSolid text) (front : String) :
    EndsSolid (front ++ text) := by
  obtain ⟨cs, c, chars, solid⟩ := ends
  exact ⟨front.toList ++ cs, c, by rw [String.toList_append, chars, List.append_assoc], solid⟩

theorem EndsSolid.ne_empty {text : String} (ends : EndsSolid text) : text ≠ "" := by
  obtain ⟨cs, c, chars, -⟩ := ends
  rintro rfl
  simp at chars

/-- Trimming a line that begins and ends with something else than a blank. -/
theorem trim_line {text : String} (ends : EndsSolid text) {c : Char} {more : List Char}
    (begins : text.toList = c :: more) (solid : isBlankChar c = false) :
    trim (text ++ "\n") = text := by
  obtain ⟨front, d, chars, last⟩ := ends
  have blank : isBlankChar '\n' = true := by decide
  have first : (text ++ "\n").toList.dropWhile isBlankChar = text.toList ++ ['\n'] := by
    rw [String.toList_append, begins]
    exact List.dropWhile_cons_of_neg (by simp [solid])
  rw [trim, first, List.reverse_append, List.reverse_singleton, List.singleton_append,
    List.dropWhile_cons_of_pos blank, chars, List.reverse_append, List.reverse_singleton,
    List.singleton_append, List.dropWhile_cons_of_neg (by simp [last]), List.reverse_cons,
    List.reverse_reverse, ← chars, String.ofList_toList]

end GoSchema.Text
