import GoSchema.Json.Value
import GoSchema.Json.Error

/-! # JSON numerals

A numeral is an optional minus sign, digits, an optional fraction and an optional exponent. It
denotes an integer when it has neither fraction nor exponent and fits 64 bits, and a double
otherwise. The double is the significand, as far as it fits 64 bits, scaled by powers of ten in
double arithmetic, so its last bit may differ from the correctly rounded one.
-/

namespace GoSchema.Json

structure Numeral where
  negative : Bool
  whole : List Char
  /-- Digits after the point, if there is one. -/
  fraction : Option (List Char)
  /-- Is the exponent negative, and its digits, if there is one. -/
  exponent : Option (Bool × List Char)
  deriving Repr

namespace Numeral

def digitValue (d : Char) : Nat :=
  d.toNat - '0'.toNat

/-- The greatest significand, of 64 bits. -/
def significandLimit : Nat :=
  0xffffffffffffffff

/-- The greatest magnitude of a written exponent, of 31 bits. -/
def exponentLimit : Nat :=
  0x7fffffff

/-- The magnitude of the least integer of 64 bits. -/
def negativeLimit : Nat :=
  0x8000000000000000

/-- Append digits to a number while it stays within a limit; also the digits left over. -/
def absorb (limit n : Nat) : List Char → Nat × List Char
  | [] => (n, [])
  | d :: ds =>
    if n * 10 + digitValue d ≤ limit then absorb limit (n * 10 + digitValue d) ds
    else (n, d :: ds)

/-- The significand and the power of ten of its last digit, as whole part and fraction give them.
Whole digits that do not fit raise the power; digits of the fraction that do not fit are dropped. -/
def significand (n : Numeral) : Nat × Int :=
  let (whole, unread) := absorb significandLimit 0 n.whole
  let fraction := n.fraction.getD []
  let (all, dropped) := absorb significandLimit whole fraction
  (all, (unread.length : Int) - (fraction.length - dropped.length : Nat))

def tenTo (e : Nat) : Float :=
  Float.ofScientific 1 false e

/-- `f * 10 ^ e`, in steps of at most 308 powers of ten; `none` when it is not finite. -/
def scaled (f : Float) (e : Int) : Option Float :=
  if 0 ≤ e then
    if e ≤ 308 then
      let r := f * tenTo e.toNat
      if r.isInf then none else some r
    else if f == 0 then some f else none
  else if -308 ≤ e then some (f / tenTo (-e).toNat)
  else if f == 0 then some f
  else scaled (f / tenTo 308) (e + 308)
termination_by (-e).toNat

def signed (negative : Bool) (f : Float) : JsonNumber :=
  .double (.ofFloat (if negative then -f else f))

/-- The number, or how many digits of the exponent had been read when the number turned out to
be out of range. -/
def value (n : Numeral) : Except Nat JsonNumber :=
  let (significand, power) := n.significand
  match n.fraction, n.exponent with
  | none, none =>
    if power = 0 then
      if n.negative then
        if significand ≤ negativeLimit ∧ significand ≠ 0 then .ok (.integer (-significand))
        else .ok (signed true (.ofNat significand))
      else .ok (.integer significand)
    else finish significand power 0
  | _, none => finish significand power 0
  | _, some (down, digits) =>
    match absorb exponentLimit 0 digits with
    | (e, []) => finish significand (if down then power - e else power + e) digits.length
    | (_, unread) =>
      if significand ≠ 0 ∧ !down then .error (digits.length - unread.length + 1)
      else .ok (signed n.negative 0)
where
  finish (significand : Nat) (power : Int) (read : Nat) : Except Nat JsonNumber :=
    match scaled (.ofNat significand) power with
    | some f => .ok (signed n.negative f)
    | none => .error read

end Numeral
end GoSchema.Json
