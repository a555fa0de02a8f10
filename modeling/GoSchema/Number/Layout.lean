import GoSchema.Number.Shortest

/-! # Written numbers

A finite number is written with its shortest digits, positionally inside a range of magnitudes
and with an exponent outside of it. It is displayed positionally in any case.
-/

namespace GoSchema

/-- How digits and exponent are laid out. -/
structure NumberLayout where
  /-- The least power of ten of the first digit that is written positionally. -/
  leastPositional : Int
  /-- The greatest power of ten of the first digit that is written positionally. -/
  greatestPositional : Int
  /-- What stands before an exponent that is not negative. -/
  plusSign : String
  deriving Repr

namespace NumberLayout

/-- Digits with a point after the first, unless there is only one. -/
def pointed : List Char → List Char
  | [] => []
  | [d] => [d]
  | d :: ds => d :: '.' :: ds

/-- `digits * 10 ^ exponent` without an exponent; a whole number ends in `.0`. -/
def positional (digits : List Char) (exponent : Int) : List Char :=
  if 0 ≤ exponent then digits ++ List.replicate exponent.toNat '0' ++ ['.', '0']
  else
    let places := (-exponent).toNat
    if places < digits.length then
      digits.take (digits.length - places) ++ '.' :: digits.drop (digits.length - places)
    else '0' :: '.' :: List.replicate (places - digits.length) '0' ++ digits

def write (layout : NumberLayout) (x : Binary64) : String :=
  let decimal := x.shortest
  let digits := Nat.toDigits 10 decimal.digits
  let leading := decimal.exponent + (digits.length - 1 : Nat)
  let sign := if x.isNegative then "-" else ""
  if decimal.digits = 0 ∨
      layout.leastPositional ≤ leading ∧ leading ≤ layout.greatestPositional then
    sign ++ String.ofList (positional digits decimal.exponent)
  else
    let exponent := if leading < 0 then "-" ++ toString leading.natAbs
      else layout.plusSign ++ toString leading.natAbs
    sign ++ String.ofList (pointed digits) ++ "e" ++ exponent

end NumberLayout

/-- A number written out without an exponent, with a point only before the digits of a fraction. -/
def Binary64.display (x : Binary64) : List Char :=
  let sign := if x.isNegative then ['-'] else []
  let digits := Nat.toDigits 10 x.shortest.digits
  if x.isFinite then
    sign ++ if x.shortest.exponent < 0 then NumberLayout.positional digits x.shortest.exponent
      else digits ++ List.replicate x.shortest.exponent.toNat '0'
  else if x.fractionField = 0 then sign ++ ['i', 'n', 'f']
  else ['N', 'a', 'N']

end GoSchema
