import GoSchema.Proofs.Number.Rounding
import GoSchema.Schema.Scalar

/-! # Shortest decimals and integers

The shortest decimal of a number rounds to it, and no decimal whose last digit has more weight does.
It has digits after the point exactly if the number is not an integer.
-/

namespace GoSchema

namespace Binary64

variable {x : Binary64}

/-! ## Grids -/

theorem below_le (x : Binary64) (e : Int) : ((x.stepsBelow e).1 * 10 ^ e : ℚ) ≤ x.magnitude := by
  have step : (0 : ℚ) < 10 ^ e := zpow_pos (by norm_num) e
  have nonneg : 0 ≤ x.magnitude / 10 ^ e := div_nonneg x.magnitude_nonneg step.le
  rw [fst_stepsBelow, ← le_div_iff₀ step]
  exact Nat.floor_le nonneg

theorem lt_above (x : Binary64) (e : Int) :
    x.magnitude < ((x.stepsBelow e).1 + 1 : Nat) * 10 ^ e := by
  have step : (0 : ℚ) < 10 ^ e := zpow_pos (by norm_num) e
  rw [fst_stepsBelow, ← div_lt_iff₀ step]
  exact_mod_cast Nat.lt_floor_add_one (x.magnitude / 10 ^ e)

theorem rounds_of_gridPoint? {e : Int} {digits : Nat} (found : x.gridPoint? e = some digits) :
    x.Rounds (digits * 10 ^ e) := by
  rw [← readsBack_iff]
  unfold gridPoint? at found
  grind

theorem not_readsBack_of_gridPoint? {e : Int} (none : x.gridPoint? e = none) :
    ¬x.Rounds ((x.stepsBelow e).1 * 10 ^ e) ∧
      ¬x.Rounds (((x.stepsBelow e).1 + 1 : Nat) * 10 ^ e) := by
  rw [← readsBack_iff, ← readsBack_iff]
  unfold gridPoint? at none
  grind

/-- Where there is no nearest point, no point of the grid rounds to the number. -/
theorem not_rounds_of_gridPoint? {e : Int} (none : x.gridPoint? e = none)
    (nonzero : x.significand ≠ 0) (k : Nat) : ¬x.Rounds (k * 10 ^ e) := by
  intro rounds
  have step : (0 : ℚ) < 10 ^ e := zpow_pos (by norm_num) e
  have whole := Rounds.magnitude nonzero
  obtain ⟨notBelow, notAbove⟩ := not_readsBack_of_gridPoint? none
  rcases Nat.lt_or_ge (x.stepsBelow e).1 k with above | below
  · have le : (((x.stepsBelow e).1 + 1 : Nat) * 10 ^ e : ℚ) ≤ k * 10 ^ e :=
      mul_le_mul_of_nonneg_right (Nat.cast_le.mpr above) step.le
    exact notAbove (whole.between rounds (x.lt_above e).le le)
  · have le : (k * 10 ^ e : ℚ) ≤ (x.stepsBelow e).1 * 10 ^ e :=
      mul_le_mul_of_nonneg_right (Nat.cast_le.mpr below) step.le
    exact notBelow (rounds.between whole le (x.below_le e))

/-! ## The shortest decimal -/

/-- The decimal `d` rounds to `x`, and none does whose last digit has more weight. Zero, which is a
point of every grid, is written as a single digit. -/
structure IsShortest (x : Binary64) (d : Decimal) : Prop where
  rounds : x.Rounds d.value
  coarsest : x.significand ≠ 0 → ∀ other : Decimal, x.Rounds other.value →
    other.exponent ≤ d.exponent
  zero : x.significand = 0 → d = ⟨0, 0⟩

theorem value_exactDecimal (x : Binary64) : x.exactDecimal.value = x.magnitude := by
  simp only [exactDecimal, Decimal.value, magnitude, Nat.pow_eq]
  rcases le_total 0 x.exponent with whole | fraction
  · obtain ⟨n, size⟩ := Int.eq_ofNat_of_zero_le whole
    simp [size]
  · obtain ⟨n, size⟩ := Int.eq_ofNat_of_zero_le (Int.neg_nonneg.mpr fraction)
    have negative : x.exponent = -n := by omega
    have ten : (10 : ℚ) ^ n = 2 ^ n * 5 ^ n := by rw [← mul_pow]; norm_num
    simp [negative, ten]
    field_simp

theorem lt_ten_pow_integerDigits (x : Binary64) : x.magnitude < 10 ^ (x.integerDigits : ℤ) := by
  have digits : (x.stepsBelow 0).1 < 10 ^ x.integerDigits :=
    (Nat.length_toDigits_le_iff (by decide) Nat.length_toDigits_pos).mp le_rfl
  have above := x.lt_above 0
  rw [zpow_zero, mul_one] at above
  rw [zpow_natCast]
  exact above.trans_le (by exact_mod_cast digits)

/-- No multiple of a power of ten with more digits than the number has rounds to it. -/
theorem Rounds.exponent_le (nonzero : x.significand ≠ 0) {d : Decimal} (rounds : x.Rounds d.value) :
    d.exponent ≤ x.integerDigits := by
  by_contra more
  have positive := rounds.pos nonzero
  have some : 1 ≤ d.digits := by
    rcases Nat.eq_zero_or_pos d.digits with none | some
    · simp [Decimal.value, none] at positive
    · exact some
  have ten : (10 : ℚ) * 10 ^ (x.integerDigits : ℤ) ≤ d.value := by
    calc (10 : ℚ) * 10 ^ (x.integerDigits : ℤ) = 10 ^ (1 + (x.integerDigits : ℤ)) :=
          (zpow_one_add₀ (by norm_num) _).symm
      _ ≤ 10 ^ d.exponent := zpow_le_zpow_right₀ (by norm_num) (by omega)
      _ ≤ d.value := le_mul_of_one_le_left (zpow_pos (by norm_num) _).le (Nat.one_le_cast.mpr some)
  have small := x.lt_ten_pow_integerDigits
  have near := rounds.le_two_mul nonzero
  have positive := x.magnitude_nonneg
  linarith

theorem isShortest_coarsest (nonzero : x.significand ≠ 0) (n : Nat) :
    x.Rounds (x.coarsest (min x.exponent 0) n).value ∧
      ∀ other : Decimal, x.Rounds other.value → other.exponent ≤ min x.exponent 0 + n →
        other.exponent ≤ (x.coarsest (min x.exponent 0) n).exponent := by
  induction n with
  | zero =>
      refine ⟨?_, fun other _ bound => by simpa [coarsest, exactDecimal] using bound⟩
      rw [coarsest, value_exactDecimal]
      exact .magnitude nonzero
  | succ n ih =>
      rw [coarsest]
      cases found : x.gridPoint? (min x.exponent 0 + (n + 1)) with
      | some digits => exact ⟨rounds_of_gridPoint? found, fun other _ bound => by simpa using bound⟩
      | none =>
          refine ⟨ih.1, fun other rounds bound => ih.2 other rounds ?_⟩
          by_contra beyond
          have here : other.exponent = min x.exponent 0 + (n + 1) := by omega
          apply not_rounds_of_gridPoint? found nonzero other.digits
          rw [← here]
          exact rounds

theorem isShortest_shortest (x : Binary64) : x.IsShortest x.shortest := by
  unfold shortest
  split
  · rename_i zero
    refine ⟨?_, fun nonzero => absurd zero nonzero, fun _ => rfl⟩
    simp [Rounds, Decimal.value, lowerEdge, upperEdge, zero, x.quarter_pos.le]
  · rename_i nonzero
    obtain ⟨rounds, coarsest⟩ :=
      isShortest_coarsest nonzero (x.integerDigits - min x.exponent 0).toNat
    refine ⟨rounds, fun _ other rounds => coarsest other rounds ?_, fun zero => absurd zero nonzero⟩
    have bound := rounds.exponent_le nonzero
    omega

/-! ## Integers -/

theorem value_eq_intCast_iff : (∃ n : ℤ, x.value = n) ↔ ∃ n : Nat, x.magnitude = n := by
  rw [value_eq]
  constructor
  · rintro ⟨n, same⟩
    refine ⟨n.natAbs, ?_⟩
    rw [Nat.cast_natAbs, Int.cast_abs, ← same, abs_mul, abs_of_nonneg x.magnitude_nonneg]
    split <;> simp
  · rintro ⟨n, same⟩
    rw [same]
    split
    · exact ⟨-n, by simp⟩
    · exact ⟨n, by simp⟩

/-- The shortest decimal has digits after the point unless the number is an integer. A fraction that
is not an integer cannot be lost, as integers that round to a number with a fractional last bit are
multiples of that bit; and an integer is a point of the grid of integers. -/
theorem IsShortest.exponent_neg_iff {d : Decimal} (is : x.IsShortest d) :
    d.exponent < 0 ↔ ¬∃ n : ℤ, x.value = n := by
  rw [value_eq_intCast_iff]
  constructor
  · rintro negative ⟨n, whole⟩
    by_cases zero : x.significand = 0
    · simp [is.zero zero] at negative
    · have rounds := Rounds.magnitude zero
      have bound := is.coarsest zero ⟨n, 0⟩ (by simpa [Decimal.value, ← whole] using rounds)
      exact absurd negative (by simpa using bound)
  · intro fractional
    by_contra positive
    obtain ⟨e, power⟩ := Int.eq_ofNat_of_zero_le (not_lt.mp positive)
    obtain ⟨n, whole⟩ : ∃ n : Nat, d.value = n :=
      ⟨d.digits * 10 ^ e, by simp [Decimal.value, power]⟩
    rcases le_total 0 x.exponent with multiple | fraction
    · obtain ⟨k, size⟩ := Int.eq_ofNat_of_zero_le multiple
      exact fractional ⟨x.significand * 2 ^ k, by simp [Binary64.magnitude, size]⟩
    · obtain ⟨k, size⟩ := Int.eq_ofNat_of_zero_le (Int.neg_nonneg.mpr fraction)
      have bits : (n : ℚ) = (n * 2 ^ k : Nat) * 2 ^ x.exponent := by
        rw [show x.exponent = -k by omega]
        simp
      have rounds := is.rounds
      rw [whole, bits] at rounds
      apply fractional
      refine ⟨n, ?_⟩
      rw [bits, rounds.eq_significand, Binary64.magnitude]

/-! ## Points -/

theorem point_mem_positional {digits : List Char} {e : Int} (negative : e < 0) :
    '.' ∈ NumberLayout.positional digits e := by
  unfold NumberLayout.positional
  rw [if_neg (not_le.mpr negative)]
  dsimp only
  split <;> simp

/-- The digits of a fraction are what makes a number be written with a point. -/
theorem point_mem_display_iff (x : Binary64) :
    '.' ∈ x.display ↔ x.isFinite = true ∧ x.shortest.exponent < 0 := by
  have sign : '.' ∉ if x.isNegative then ['-'] else [] := by split <;> simp
  have digits : '.' ∉ Nat.toDigits 10 x.shortest.digits := by
    intro member
    have digit := Nat.isDigit_of_mem_toDigits (by decide) (by decide) member
    revert digit
    decide
  unfold display
  cases finite : x.isFinite with
  | false =>
      simp only [Bool.false_eq_true, reduceIte, false_and, iff_false]
      split <;> simp [sign]
  | true =>
      by_cases negative : x.shortest.exponent < 0
      · simp [negative, point_mem_positional negative]
      · simp [negative, sign, digits]

end Binary64

/-- A number is read as fractional exactly if it is finite and not an integer. -/
theorem Scalar.ofNumber_eq_iff (x : Binary64) :
    (Scalar.ofNumber x = .float ↔ x.isFinite = true ∧ ¬∃ n : ℤ, x.value = n) ∧
      (Scalar.ofNumber x = .int ↔ x.isFinite = false ∨ ∃ n : ℤ, x.value = n) := by
  have point : '.' ∈ x.display ↔ x.isFinite = true ∧ ¬∃ n : ℤ, x.value = n := by
    rw [x.point_mem_display_iff, x.isShortest_shortest.exponent_neg_iff]
  have whole : (x.isFinite = false ∨ ∃ n : ℤ, x.value = n) ↔ '.' ∉ x.display := by
    rw [point, not_and_or, not_not, Bool.not_eq_true]
  rw [whole, ← point, Scalar.ofNumber]
  split <;> simp_all

/-- The greatest double with a fraction, the next one, and the least one. -/
example : Scalar.ofNumber ⟨0x432FFFFFFFFFFFFF⟩ = .float ∧
    Scalar.ofNumber ⟨0x4330000000000000⟩ = .int ∧ Scalar.ofNumber ⟨1⟩ = .float := by
  decide +kernel

end GoSchema
