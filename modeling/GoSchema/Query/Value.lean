import GoSchema.Json.Value
import GoSchema.Json.Token
import GoSchema.Number.Layout

/-! # Values of queries

A query computes on JSON values, with three kinds of numbers: integers of 64 bits, doubles, and
numerals that keep the text they were written with until arithmetic needs their value.
-/

namespace GoSchema.Query

inductive Number where
  | int (value : Int)
  | double (value : Float)
  | numeral (text : String)
  deriving Repr, Inhabited

/-- A value of a query. Objects keep the order of their members. -/
inductive Value where
  | null
  | bool (value : Bool)
  | number (value : Number)
  | string (text : String)
  | array (items : List Value)
  | object (members : List (String × Value))
  deriving Repr, Inhabited

namespace Number

/-- Numerals of doubles in documents are positional from 10^-5 up to 10^16. -/
def numeralLayout : NumberLayout :=
  ⟨-5, 15, "+"⟩

/-- Computed doubles are positional from 10^-4 up to 10^16. -/
def doubleLayout : NumberLayout :=
  ⟨-4, 15, ""⟩

def fitsInt (n : Int) : Bool :=
  -0x8000000000000000 ≤ n && n ≤ 0x7fffffffffffffff

/-- The number that a decimal integer or another numeral denotes. -/
def ofInt (n : Int) : Number :=
  if fitsInt n then .int n else .numeral (toString n)

def ofJson : JsonNumber → Number
  | .integer n => ofInt n
  | .double x => .numeral (numeralLayout.write x)

/-- The greatest power of ten that is computed; beyond it every double is zero or infinite. -/
def powerLimit : Int :=
  5000

def withoutIdleZeros (cs : List Char) : List Char :=
  match cs.dropWhile (· == '0') with
  | [] => ['0']
  | c :: rest => if c.isDigit || c == '-' then c :: rest else '0' :: c :: rest

/-- The double nearest to a numeral, which may begin with idle zeros. -/
def readNumeral (text : String) : Float :=
  match Json.Lexeme.numeral .start (withoutIdleZeros text.toList) with
  | .error _ => 0 / 0
  | .ok (n, _) =>
    let fraction := n.fraction.getD []
    let digits := (n.whole ++ fraction).foldl (fun m d => m * 10 + Json.Numeral.digitValue d) 0
    let written : Int := match n.exponent with
      | none => 0
      | some (down, ds) =>
        let e : Int := (ds.foldl (fun m d => m * 10 + Json.Numeral.digitValue d) 0 : Nat)
        if down then -e else e
    let power : Int := max (-powerLimit) (min powerLimit (written - fraction.length))
    let magnitude := Float.ofScientific digits (power < 0) power.natAbs
    if n.negative then -magnitude else magnitude

def toFloat : Number → Float
  | .int n => .ofInt n
  | .double x => x
  | .numeral s => readNumeral s

/-- The number without the text it was written with. -/
def settled : Number → Number
  | .numeral s => .double (readNumeral s)
  | n => n

/-- An operation on integers that falls back to doubles when the result does not fit. -/
def combine (ints : Int → Int → Int) (floats : Float → Float → Float) : Number → Number → Number
  | .int a, .int b =>
    if fitsInt (ints a b) then .int (ints a b) else .double (floats (.ofInt a) (.ofInt b))
  | a, b => .double (floats a.toFloat b.toFloat)

def negate : Number → Number
  | .int n => .int (-n)
  | x => .double (-x.toFloat)

def magnitude : Number → Number
  | .int n => .int n.natAbs
  | x => .double x.toFloat.abs

/-- Integers are compared exactly and all other numbers as doubles. A NaN is below every number. -/
def compare : Number → Number → Ordering
  | .int a, .int b => Ord.compare a b
  | a, b =>
    let x := a.toFloat
    let y := b.toFloat
    if x.isNaN || x < y then .lt else if x == y then .eq else .gt

/-- The text of a number; infinities and NaN are written as null. -/
def text : Number → String
  | .int n => toString n
  | .numeral s => s
  | .double x =>
    let b := Binary64.ofFloat x
    if b.isFinite then doubleLayout.write b else "null"

end Number

namespace Value

/-- A number without the text it was written with, or any other value. -/
def settled : Value → Value
  | .number n => .number n.settled
  | v => v

mutual
def ofJson : Json → Value
  | .null => .null
  | .bool b => .bool b
  | .number n => .number (.ofJson n)
  | .string s => .string s
  | .array items => .array (ofItems items)
  | .object members => .object (ofMembers members)

def ofItems : List Json → List Value
  | [] => []
  | item :: rest => ofJson item :: ofItems rest

def ofMembers : List (String × Json) → List (String × Value)
  | [] => []
  | (key, value) :: rest => (key, ofJson value) :: ofMembers rest
end

/-- A character of a JSON string: quotes, backslashes and control characters are escaped, with a
letter where there is one. -/
def escapedChar (c : Char) : List Char :=
  match c with
  | '"' => ['\\', '"']
  | '\\' => ['\\', '\\']
  | '\x08' => ['\\', 'b']
  | '\x0c' => ['\\', 'f']
  | '\n' => ['\\', 'n']
  | '\r' => ['\\', 'r']
  | '\t' => ['\\', 't']
  | _ =>
    if c.toNat < 0x20 ∨ c.toNat = 0x7F then
      let digits := Nat.toDigits 16 c.toNat
      '\\' :: 'u' :: List.replicate (4 - digits.length) '0' ++ digits
    else [c]

def quoted (s : String) : String :=
  "\"" ++ String.ofList (s.toList.flatMap escapedChar) ++ "\""

mutual
def text : Value → String
  | .null => "null"
  | .bool b => toString b
  | .number n => n.text
  | .string s => quoted s
  | .array items => "[" ++ ",".intercalate (itemTexts items) ++ "]"
  | .object members => "\x7b" ++ ",".intercalate (memberTexts members) ++ "\x7d"

def itemTexts : List Value → List String
  | [] => []
  | item :: rest => item.text :: itemTexts rest

def memberTexts : List (String × Value) → List String
  | [] => []
  | (key, value) :: rest => (quoted key ++ ":" ++ value.text) :: memberTexts rest
end

mutual
/-- The value with the members of every object ascending by key. -/
def sorted : Value → Value
  | .array items => .array (sortedItems items)
  | .object members => .object ((sortedMembers members).mergeSort fun a b => a.1 ≤ b.1)
  | v => v

def sortedItems : List Value → List Value
  | [] => []
  | item :: rest => item.sorted :: sortedItems rest

def sortedMembers : List (String × Value) → List (String × Value)
  | [] => []
  | (key, value) :: rest => (key, value.sorted) :: sortedMembers rest
end

def rank : Value → Nat
  | .null => 0
  | .bool false => 1
  | .bool true => 2
  | .number _ => 3
  | .string _ => 4
  | .array _ => 5
  | .object _ => 6

mutual
/-- Compares values whose members are sorted: first by kind, then by content. Objects are compared
by their keys first. -/
def compareSorted : Value → Value → Ordering
  | .number a, .number b => a.compare b
  | .string a, .string b => compare a b
  | .array as, .array bs => compareItems as bs
  | .object as, .object bs =>
    (compare (as.map (·.1)) (bs.map (·.1))).then (compareMembers as bs)
  | a, b => compare a.rank b.rank

def compareItems : List Value → List Value → Ordering
  | [], [] => .eq
  | [], _ :: _ => .lt
  | _ :: _, [] => .gt
  | a :: as, b :: bs => (compareSorted a b).then (compareItems as bs)

def compareMembers : List (String × Value) → List (String × Value) → Ordering
  | [], [] => .eq
  | [], _ :: _ => .lt
  | _ :: _, [] => .gt
  | (_, a) :: as, (_, b) :: bs => (compareSorted a b).then (compareMembers as bs)
end

def order (a b : Value) : Ordering :=
  compareSorted a.sorted b.sorted

/-- All values but null and false count as true. -/
def isTrue : Value → Bool
  | .null | .bool false => false
  | _ => true

def kind : Value → String
  | .null => "null"
  | .bool _ => "boolean"
  | .number _ => "number"
  | .string _ => "string"
  | .array _ => "array"
  | .object _ => "object"

mutual
/-- A value and everything in it, each value before its parts. -/
def descendants : Value → List Value
  | .array items => .array items :: itemDescendants items
  | .object members => .object members :: memberDescendants members
  | v => [v]

def itemDescendants : List Value → List Value
  | [] => []
  | item :: rest => item.descendants ++ itemDescendants rest

def memberDescendants : List (String × Value) → List Value
  | [] => []
  | (_, value) :: rest => value.descendants ++ memberDescendants rest
end

end Value
end GoSchema.Query
