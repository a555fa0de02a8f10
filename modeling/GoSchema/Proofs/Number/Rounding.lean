import GoSchema.Number.Shortest
import Mathlib.Data.Rat.Floor
import Mathlib.Algebra.Order.Floor.Semifield
import Mathlib.Tactic.FieldSimp
import Mathlib.Tactic.Linarith
import Mathlib.Tactic.Positivity

/-! # Doubles and the decimals that round to them

A finite double is a rational number, and so is a decimal. A decimal rounds to a double when it is
nowhere beyond the middle between that double and one of its neighbours.
-/

namespace GoSchema

def Decimal.value (d : Decimal) : ℚ :=
  (d.digits : ℚ) * 10 ^ d.exponent

namespace Binary64

/-- The number that a finite pattern stands for. Only where the exponent field is zero is there no
bit before the fraction. -/
def value (x : Binary64) : ℚ :=
  (if x.isNegative then -1 else 1) *
    if x.exponentField = 0 then (x.fractionField : ℚ) / 2 ^ 52 * 2 ^ (-1022 : ℤ)
    else (1 + (x.fractionField : ℚ) / 2 ^ 52) * 2 ^ (x.exponentField - 1023 : ℤ)

def magnitude (x : Binary64) : ℚ :=
  (x.significand : ℚ) * 2 ^ x.exponent

/-- A quarter of the unit of the last bit. -/
def quarter (x : Binary64) : ℚ :=
  2 ^ (x.exponent - 2)

/-- The middle between `x` and its lower neighbour. -/
def lowerEdge (x : Binary64) : ℚ :=
  ((4 * x.significand - if x.isBinadeStart then 1 else 2 : Nat) : ℚ) * x.quarter

/-- The middle between `x` and its upper neighbour. -/
def upperEdge (x : Binary64) : ℚ :=
  ((4 * x.significand + 2 : Nat) : ℚ) * x.quarter

/-- The number `q` rounds to the magnitude of `x`, and ties go to the even significand. -/
def Rounds (x : Binary64) (q : ℚ) : Prop :=
  if x.significand % 2 = 0 then x.lowerEdge ≤ q ∧ q ≤ x.upperEdge
  else x.lowerEdge < q ∧ q < x.upperEdge

variable {x : Binary64}

theorem value_eq (x : Binary64) :
    x.value = (if x.isNegative then -1 else 1) * x.magnitude := by
  unfold value magnitude significand exponent
  congr 1
  split
  · rename_i subnormal
    have least : (-1022 : ℤ) = (max x.exponentField 1 : Nat) - 1075 + 52 := by omega
    rw [least, zpow_add₀ (two_ne_zero : (2 : ℚ) ≠ 0)]
    norm_num
    ring
  · have normal : (x.exponentField - 1023 : ℤ) = (max x.exponentField 1 : Nat) - 1075 + 52 := by
      omega
    rw [normal, zpow_add₀ (two_ne_zero : (2 : ℚ) ≠ 0), fractionLimit]
    push_cast
    norm_num
    ring

theorem zpow_eq_div {b : ℚ} (base : b ≠ 0) (e : ℤ) : b ^ e = b ^ e.toNat / b ^ (-e).toNat := by
  rw [← zpow_natCast, ← zpow_natCast, ← zpow_sub₀ base, Int.toNat_sub_toNat_neg]

theorem compareScaled_eq_lt {a b : Nat} {e p : Int} :
    compareScaled a e b p = .lt ↔ (a : ℚ) * 10 ^ e < b * 2 ^ p := by
  rw [compareScaled, compare_lt_iff_lt, zpow_eq_div (by norm_num : (10 : ℚ) ≠ 0),
    zpow_eq_div (by norm_num : (2 : ℚ) ≠ 0), ← mul_div_assoc, ← mul_div_assoc,
    div_lt_div_iff₀ (by positivity) (by positivity)]
  norm_cast

theorem compareScaled_eq_gt {a b : Nat} {e p : Int} :
    compareScaled a e b p = .gt ↔ (b : ℚ) * 2 ^ p < a * 10 ^ e := by
  rw [compareScaled, compare_gt_iff_gt, zpow_eq_div (by norm_num : (10 : ℚ) ≠ 0),
    zpow_eq_div (by norm_num : (2 : ℚ) ≠ 0), ← mul_div_assoc, ← mul_div_assoc,
    div_lt_div_iff₀ (by positivity) (by positivity)]
  norm_cast

theorem readsBack_iff {digits : Nat} {e : Int} :
    x.readsBack digits e = true ↔ x.Rounds (digits * 10 ^ e) := by
  unfold readsBack Rounds lowerEdge upperEdge quarter
  split <;> simp [compareScaled_eq_lt, compareScaled_eq_gt]

theorem fst_stepsBelow (e : Int) : (x.stepsBelow e).1 = ⌊x.magnitude / 10 ^ e⌋₊ := by
  rw [stepsBelow, ← Nat.floor_div_eq_div (K := ℚ), magnitude,
    zpow_eq_div (by norm_num : (10 : ℚ) ≠ 0), zpow_eq_div (by norm_num : (2 : ℚ) ≠ 0)]
  simp only [Nat.pow_eq]
  push_cast
  field_simp

/-! ## Edges -/

theorem quarter_pos (x : Binary64) : 0 < x.quarter :=
  zpow_pos two_pos _

theorem four_quarters (x : Binary64) : 4 * x.quarter = 2 ^ x.exponent := by
  rw [quarter, zpow_sub₀ (two_ne_zero : (2 : ℚ) ≠ 0)]
  norm_num
  ring

theorem magnitude_eq (x : Binary64) : x.magnitude = (4 * x.significand : Nat) * x.quarter := by
  rw [magnitude, ← four_quarters]
  push_cast
  ring

theorem magnitude_nonneg (x : Binary64) : 0 ≤ x.magnitude := by
  rw [magnitude_eq]
  exact mul_nonneg (Nat.cast_nonneg _) x.quarter_pos.le

theorem lowerEdge_lt_magnitude (nonzero : x.significand ≠ 0) : x.lowerEdge < x.magnitude := by
  rw [magnitude_eq, lowerEdge, mul_lt_mul_iff_of_pos_right x.quarter_pos, Nat.cast_lt]
  split <;> omega

theorem magnitude_lt_upperEdge (x : Binary64) : x.magnitude < x.upperEdge := by
  rw [magnitude_eq, upperEdge, mul_lt_mul_iff_of_pos_right x.quarter_pos, Nat.cast_lt]
  omega

theorem lowerEdge_le_magnitude (x : Binary64) : x.lowerEdge ≤ x.magnitude := by
  rw [magnitude_eq, lowerEdge, mul_le_mul_iff_of_pos_right x.quarter_pos, Nat.cast_le]
  omega

namespace Rounds

variable {p q r : ℚ}

theorem magnitude (nonzero : x.significand ≠ 0) : x.Rounds x.magnitude := by
  have below := lowerEdge_lt_magnitude nonzero
  have above := magnitude_lt_upperEdge x
  unfold Rounds
  split
  · exact ⟨below.le, above.le⟩
  · exact ⟨below, above⟩

theorem edges (rounds : x.Rounds q) : x.lowerEdge ≤ q ∧ q ≤ x.upperEdge := by
  unfold Rounds at rounds
  split at rounds
  · exact rounds
  · exact ⟨rounds.1.le, rounds.2.le⟩

/-- What lies between two numbers that round to `x` does too. -/
theorem between (below : x.Rounds p) (above : x.Rounds r) (le : p ≤ q) (ge : q ≤ r) :
    x.Rounds q := by
  unfold Rounds at *
  split
  · simp_all only [reduceIte]
    exact ⟨below.1.trans le, ge.trans above.2⟩
  · simp_all only [reduceIte]
    exact ⟨below.1.trans_le le, ge.trans_lt above.2⟩

theorem pos (rounds : x.Rounds q) (nonzero : x.significand ≠ 0) : 0 < q := by
  have edge : 0 < x.lowerEdge := by
    apply mul_pos _ x.quarter_pos
    rw [Nat.cast_pos]
    split <;> omega
  exact edge.trans_le rounds.edges.1

theorem le_two_mul (rounds : x.Rounds q) (nonzero : x.significand ≠ 0) :
    q ≤ 2 * x.magnitude := by
  have edge : x.upperEdge ≤ (2 * (4 * x.significand) : Nat) * x.quarter := by
    rw [upperEdge, mul_le_mul_iff_of_pos_right x.quarter_pos, Nat.cast_le]
    omega
  rw [magnitude_eq, ← mul_assoc]
  exact_mod_cast rounds.edges.2.trans edge

/-- Among the multiples of the last bit only the magnitude itself rounds to it. -/
theorem eq_significand {n : Nat} (rounds : x.Rounds (n * 2 ^ x.exponent)) :
    n = x.significand := by
  have quarters : (n * 2 ^ x.exponent : ℚ) = (4 * n : Nat) * x.quarter := by
    rw [← four_quarters]
    push_cast
    ring
  obtain ⟨below, above⟩ := rounds.edges
  rw [quarters, lowerEdge, mul_le_mul_iff_of_pos_right x.quarter_pos, Nat.cast_le] at below
  rw [quarters, upperEdge, mul_le_mul_iff_of_pos_right x.quarter_pos, Nat.cast_le] at above
  split at below <;> omega

end Rounds

/-! ## Neighbours -/

theorem exponent_ge (x : Binary64) : -1074 ≤ x.exponent := by
  unfold exponent
  omega

theorem significand_lt (x : Binary64) : x.significand < 2 * fractionLimit := by
  have fraction : x.fractionField < fractionLimit := Nat.mod_lt _ (by decide)
  unfold significand
  split <;> omega

/-- Above the least exponent the significand has all its bits, and there are more of its size below
unless a binade starts here. -/
theorem significand_ge (above : -1074 < x.exponent) :
    (fractionLimit + if x.isBinadeStart then 0 else 1) ≤ x.significand := by
  unfold exponent at above
  have normal : 1 < x.exponentField := by omega
  have nonzero : x.exponentField ≠ 0 := by omega
  simp only [significand, isBinadeStart, nonzero, normal, reduceIte, decide_true, Bool.and_true,
    beq_iff_eq]
  split <;> omega

theorem add_quarters_le_iff {a b c : Nat} :
    (a * x.quarter + b * x.quarter : ℚ) ≤ 2 * (c * x.quarter) ↔ a + b ≤ 2 * c := by
  rw [← add_mul, ← mul_assoc, mul_le_mul_iff_of_pos_right x.quarter_pos]
  norm_cast

theorem le_add_quarters_iff {a b c : Nat} :
    2 * (c * x.quarter) ≤ (a * x.quarter + b * x.quarter : ℚ) ↔ 2 * c ≤ a + b := by
  rw [← add_mul, ← mul_assoc, mul_le_mul_iff_of_pos_right x.quarter_pos]
  norm_cast

/-- No double lies between `x` and the neighbours in whose middle with `x` the edges are. -/
theorem edges_apart (x y : Binary64) : x.magnitude + y.magnitude ≤ 2 * x.lowerEdge ∨
    y.magnitude = x.magnitude ∨ 2 * x.upperEdge ≤ x.magnitude + y.magnitude := by
  rcases le_or_gt x.exponent y.exponent with coarser | finer
  · -- Both are multiples of the last bit of `x`.
    obtain ⟨n, quarters⟩ : ∃ n : Nat, y.magnitude = (4 * n : Nat) * x.quarter := by
      obtain ⟨k, difference⟩ := Int.le.dest coarser
      refine ⟨y.significand * 2 ^ k, ?_⟩
      rw [magnitude, ← difference, zpow_add₀ (two_ne_zero : (2 : ℚ) ≠ 0), zpow_natCast,
        ← four_quarters]
      push_cast
      ring
    rw [magnitude_eq, quarters, lowerEdge, upperEdge, add_quarters_le_iff, le_add_quarters_iff]
    rcases Nat.lt_trichotomy n x.significand with less | same | more
    · left
      split <;> omega
    · right; left
      rw [same]
    · right; right
      omega
  · -- The significand of `x` has all its bits, which is more than `y` can reach.
    have large := significand_ge (lt_of_le_of_lt y.exponent_ge finer)
    have small := y.significand_lt
    have half : (2 : ℚ) ^ (x.exponent - 1) = 2 * x.quarter := by
      rw [quarter, ← zpow_one_add₀ (two_ne_zero : (2 : ℚ) ≠ 0)]
      congr 1
      omega
    have reach : y.magnitude ≤ (2 * y.significand : Nat) * x.quarter := by
      have finer : (2 : ℚ) ^ y.exponent ≤ 2 ^ (x.exponent - 1) :=
        zpow_le_zpow_right₀ one_le_two (by omega)
      calc y.magnitude ≤ y.significand * 2 ^ (x.exponent - 1) :=
            mul_le_mul_of_nonneg_left finer (Nat.cast_nonneg _)
        _ = (2 * y.significand : Nat) * x.quarter := by
            rw [half]
            push_cast
            ring
    left
    calc x.magnitude + y.magnitude
        ≤ (4 * x.significand : Nat) * x.quarter + (2 * y.significand : Nat) * x.quarter := by
          rw [magnitude_eq]
          exact add_le_add_right reach _
      _ ≤ 2 * x.lowerEdge := by
          rw [lowerEdge, add_quarters_le_iff]
          cases binade : x.isBinadeStart <;>
            simp only [binade, Bool.false_eq_true, reduceIte] at large ⊢ <;> omega

/-- A number that rounds to `x` is at least as near to `x` as to any other double. -/
theorem Rounds.nearest {q : ℚ} (rounds : x.Rounds q) (y : Binary64) :
    |q - x.magnitude| ≤ |q - y.magnitude| := by
  obtain ⟨below, above⟩ := rounds.edges
  have low := x.lowerEdge_le_magnitude
  have high := x.magnitude_lt_upperEdge
  rcases edges_apart x y with lower | same | upper
  · have near : |q - x.magnitude| ≤ q - y.magnitude :=
      abs_le.mpr ⟨by linarith, by linarith⟩
    exact near.trans (le_abs_self _)
  · rw [same]
  · have near : |q - x.magnitude| ≤ -(q - y.magnitude) :=
      abs_le.mpr ⟨by linarith, by linarith⟩
    exact near.trans (neg_le_abs _)

end Binary64
end GoSchema
