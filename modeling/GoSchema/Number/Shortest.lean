import GoSchema.Number.Binary64

/-! # The shortest decimal of a number

Among the decimals that read back as a given double, the shortest is the one whose last digit
has the greatest weight, and of two such the one nearer to the double, or the even one if both are
equally near. All comparisons are made between natural numbers.
-/

namespace GoSchema

/-- The decimal `digits * 10 ^ exponent`. -/
structure Decimal where
  digits : Nat
  exponent : Int
  deriving DecidableEq, Repr

namespace Binary64

def compareScaled (a : Nat) (e : Int) (b : Nat) (p : Int) : Ordering :=
  compare (a * Nat.pow 10 e.toNat * Nat.pow 2 (-p).toNat)
    (b * Nat.pow 2 p.toNat * Nat.pow 10 (-e).toNat)

/-- Does `digits * 10 ^ e` read back as `x`? It does when it is at most half a unit of the last
bit away, and not exactly half a unit when the significand is odd. Below the start of a binade
the unit is half as large. -/
def readsBack (x : Binary64) (digits : Nat) (e : Int) : Bool :=
  let lower := 4 * x.significand - if x.isBinadeStart then 1 else 2
  let upper := 4 * x.significand + 2
  let fromLower := compareScaled digits e lower (x.exponent - 2)
  let fromUpper := compareScaled digits e upper (x.exponent - 2)
  if x.significand % 2 = 0 then fromLower != .lt && fromUpper != .gt
  else fromLower == .gt && fromUpper == .lt

/-- The whole number of steps of `10 ^ e` below the magnitude of `x`, and the remainder and the
divisor of that division. -/
def stepsBelow (x : Binary64) (e : Int) : Nat × Nat × Nat :=
  let magnitude := x.significand * Nat.pow 2 x.exponent.toNat * Nat.pow 10 (-e).toNat
  let step := Nat.pow 10 e.toNat * Nat.pow 2 (-x.exponent).toNat
  (magnitude / step, magnitude % step, step)

/-- The multiple of `10 ^ e` nearest to the magnitude of `x` among those that read back as `x`; of
two equally near ones it is the even one. -/
def gridPoint? (x : Binary64) (e : Int) : Option Nat :=
  let (below, rest, step) := x.stepsBelow e
  let lowerNearer := 2 * rest < step ∨ 2 * rest = step ∧ below % 2 = 0
  match x.readsBack below e, x.readsBack (below + 1) e with
  | true, true => some (if lowerNearer then below else below + 1)
  | true, false => some below
  | false, true => some (below + 1)
  | false, false => none

/-- The decimal that is equal to the magnitude of `x`, on the grid of `10 ^ min exponent 0`. -/
def exactDecimal (x : Binary64) : Decimal :=
  ⟨x.significand * Nat.pow 2 x.exponent.toNat * Nat.pow 5 (-x.exponent).toNat, min x.exponent 0⟩

/-- The coarsest of the grids `10 ^ (low + n)`, …, `10 ^ (low + 1)` with a point that reads back,
or else the exact decimal. -/
def coarsest (x : Binary64) (low : Int) : Nat → Decimal
  | 0 => x.exactDecimal
  | n + 1 =>
    match x.gridPoint? (low + (n + 1)) with
    | some digits => ⟨digits, low + (n + 1)⟩
    | none => x.coarsest low n

def integerDigits (x : Binary64) : Nat :=
  (Nat.toDigits 10 (x.stepsBelow 0).1).length

def shortest (x : Binary64) : Decimal :=
  if x.significand = 0 then ⟨0, 0⟩
  else
    let low := min x.exponent 0
    x.coarsest low (x.integerDigits - low).toNat

end Binary64
end GoSchema
