/-! # Positions in JSON text

A position says how much of a text has been read: the number of the line, from 1, and the number
of bytes read since its start.
-/

namespace GoSchema.Json

/-- Line and column of what has been read so far. -/
structure Position where
  line : Nat
  column : Nat
  deriving DecidableEq, Repr, Inhabited

namespace Position

def start : Position :=
  ⟨1, 0⟩

def advance (p : Position) (c : Char) : Position :=
  if c = '\n' then ⟨p.line + 1, 0⟩ else ⟨p.line, p.column + c.utf8Size⟩

def advanceAll (p : Position) (cs : List Char) : Position :=
  cs.foldl advance p

/-- The position after `n` more bytes, which may end inside a character. -/
def advanceBytes (p : Position) : Nat → List Char → Position
  | _, [] => p
  | n, c :: cs =>
    if c.utf8Size ≤ n then advanceBytes (p.advance c) (n - c.utf8Size) cs
    else ⟨p.line, p.column + n⟩

/-- The position after the next byte, if there is one. -/
def ahead (p : Position) (cs : List Char) : Position :=
  match cs with
  | [] => p
  | '\n' :: _ => ⟨p.line + 1, 0⟩
  | _ :: _ => ⟨p.line, p.column + 1⟩

end Position
end GoSchema.Json
