import GoSchema.Source.Lexer
import Mathlib.Data.Nat.Bitwise

/-! # Letters and digits

No letter is a digit. The tables of both are long, so they are compared as numbers: the code points
of a table are the bits of one number, and tables without a common code point have no common bit.
-/

namespace GoSchema

namespace Text

/-- The code points of ranges as the bits of a number. -/
def CodeRanges.bits (ranges : CodeRanges) : Nat :=
  ranges.foldr (fun range bits => (1 <<< (range.2 + 1 - range.1) - 1) <<< range.1 ||| bits) 0

theorem CodeRanges.testBit_bits {ranges : CodeRanges} {c : Char}
    (known : ranges.contains c = true) : ranges.bits.testBit c.toNat = true := by
  induction ranges with
  | nil => cases known
  | cons range rest ih =>
      rw [bits, List.foldr_cons, Nat.testBit_or, Bool.or_eq_true]
      rw [contains, List.any_cons, Bool.or_eq_true] at known
      rcases known with here | later
      · obtain ⟨first, last⟩ : range.1 ≤ c.toNat ∧ c.toNat ≤ range.2 := by simpa using here
        left
        rw [Nat.testBit_shiftLeft, Nat.one_shiftLeft, Nat.testBit_two_pow_sub_one]
        simp only [Bool.and_eq_true, decide_eq_true_eq]
        omega
      · exact .inr (ih later)

theorem letters_apart : letterRanges.bits &&& decimalDigitRanges.bits = 0 := by
  decide +kernel

/-- The code points of ASCII letters. -/
theorem toNat_of_isAlpha {c : Char} (letter : c.isAlpha = true) :
    65 ≤ c.toNat ∧ c.toNat ≤ 90 ∨ 97 ≤ c.toNat ∧ c.toNat ≤ 122 := by
  rcases Bool.or_eq_true_iff.mp letter with upper | lower
  · exact .inl (of_decide_eq_true upper)
  · obtain ⟨low, high⟩ := Bool.and_eq_true_iff.mp lower
    exact .inr ⟨of_decide_eq_true low, of_decide_eq_true high⟩

theorem isLetter_of_isAlpha {c : Char} (letter : c.isAlpha = true) : isLetter c = true := by
  have bounds := toNat_of_isAlpha letter
  have ascii : c.toNat < 0x80 := by omega
  rw [isLetter, if_pos ascii, letter]

theorem isDecimalDigit_of_isLetter {c : Char} (letter : isLetter c = true) :
    isDecimalDigit c = false := by
  unfold isLetter at letter
  unfold isDecimalDigit
  split
  · next ascii =>
      rw [if_pos ascii] at letter
      rw [← Bool.not_eq_true]
      intro digit
      have bounds := toNat_of_isAlpha letter
      have digits : 48 ≤ c.toNat ∧ c.toNat ≤ 57 := Char.isDigit_iff_toNat.mp digit
      omega
  · next wide =>
      rw [if_neg wide] at letter
      rw [← Bool.not_eq_true]
      intro digit
      have common : (letterRanges.bits &&& decimalDigitRanges.bits).testBit c.toNat = true := by
        rw [Nat.testBit_and, CodeRanges.testBit_bits letter, CodeRanges.testBit_bits digit]
        rfl
      rw [letters_apart, Nat.zero_testBit] at common
      cases common

end Text

theorem Source.isDigit_of_isLetter {c : Char} (letter : Source.isLetter c = true) :
    Source.isDigit c = false := by
  rcases Bool.or_eq_true_iff.mp letter with underscore | letter
  · rw [beq_iff_eq.mp underscore]
    decide
  · exact Text.isDecimalDigit_of_isLetter letter

end GoSchema
