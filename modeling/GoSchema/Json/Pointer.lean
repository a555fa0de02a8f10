import GoSchema.Json.Value

/-! # JSON pointers

A pointer is empty, or a sequence of reference tokens with a slash before each. In a token `~1`
stands for a slash and `~0` for a tilde.
-/

namespace GoSchema.Json

namespace Pointer

/-- Replace the escape `~` followed by `mark`, from left to right. -/
def unescape (mark value : Char) : List Char → List Char
  | '~' :: c :: rest =>
    if c = mark then value :: unescape mark value rest else '~' :: unescape mark value (c :: rest)
  | c :: rest => c :: unescape mark value rest
  | [] => []

/-- The key or index that a reference token stands for. -/
def decode (token : String) : String :=
  String.ofList (unescape '0' '~' (unescape '1' '/' token.toList))

/-- The reference tokens of a pointer; `none` when it neither is empty nor begins with a slash. -/
def tokens? (pointer : String) : Option (List String) :=
  match pointer.splitOn "/" with
  | [""] => some []
  | "" :: tokens => some (tokens.map decode)
  | _ => none

/-- An array index: decimal digits without a leading zero, in 64 bits. -/
def index? (token : String) : Option Nat :=
  let digits := token.toList
  if digits.isEmpty ∨ !digits.all Char.isDigit ∨ (digits.head? = some '0' ∧ 1 < digits.length) then
    none
  else
    let n := digits.foldl (fun n d => n * 10 + (d.toNat - '0'.toNat)) 0
    if n ≤ 0xffffffffffffffff then some n else none

end Pointer

def descend : Json → List String → Option Json
  | value, [] => some value
  | .object members, token :: rest => (members.lookup token).bind fun v => descend v rest
  | .array items, token :: rest => do
    let i ← Pointer.index? token
    let item ← items[i]?
    descend item rest
  | _, _ :: _ => none

def pointer? (value : Json) (pointer : String) : Option Json :=
  (Pointer.tokens? pointer).bind value.descend

end GoSchema.Json
