import GoSchema.Source.Grammar

/-! # Reading by recursive descent

Declarations are read by procedures that call each other and go through the tokens with a position.
A procedure that calls itself or goes around a loop might never come to an end, so it is given a
limit, and has no result if it needs more calls or turns. What it does on its way is kept in a
trace.
-/

namespace GoSchema.Source

/-- What is entered again and again: a turn of the loop over declarations, a turn of the loop over
fields, and a call for a type. -/
inductive Routine where
  | file
  | struct
  | type
  deriving DecidableEq, Repr

inductive Event where
  /-- The token with this number is looked at. -/
  | look (index : Nat)
  /-- The position moves to this one. -/
  | move (index : Nat)
  /-- A routine is entered at this position. -/
  | enter (routine : Routine) (index : Nat)
  deriving DecidableEq, Repr

def Event.index : Event → Nat
  | .look i | .move i | .enter _ i => i

def Event.entry? (routine : Routine) : Event → Option Nat
  | .enter other i => if other = routine then some i else none
  | .look _ | .move _ => none

structure Cursor where
  position : Nat
  trace : List Event
  deriving DecidableEq, Repr

namespace Cursor

def start : Cursor :=
  ⟨0, []⟩

def look (c : Cursor) (n : Nat) : Cursor :=
  { c with trace := c.trace ++ [.look (c.position + n)] }

def move (c : Cursor) : Cursor :=
  ⟨c.position + 1, c.trace ++ [.move (c.position + 1)]⟩

def enter (c : Cursor) (routine : Routine) : Cursor :=
  { c with trace := c.trace ++ [.enter routine c.position] }

/-- The positions at which a routine has been entered, in this order. -/
def entries (c : Cursor) (routine : Routine) : List Nat :=
  c.trace.filterMap (Event.entry? routine)

end Cursor

/-- A procedure has no result if it does not come to an end within its limit, or if it looks at a
token that does not exist. -/
abbrev Descent :=
  ExceptT Error (StateT Cursor Option)

namespace Descent

def enter (routine : Routine) : Descent Unit :=
  modify (·.enter routine)

/-- The limit has been reached. -/
def exhausted {α : Type} : Descent α :=
  ExceptT.mk fun _ => none

def unexpected {α : Type} (expected : Expected) (found : Token) : Descent α :=
  throw ⟨found.position, .unexpected expected found.kind⟩

/-- Does this token end a declaration or a field? -/
def terminates (closing : Option Punct) : Kind → Bool
  | .newline | .punct .semicolon | .eof => true
  | .punct mark => some mark == closing
  | _ => false

/-- Does this token show that the name before it is an embedded type? -/
def endsEmbedded : Kind → Bool
  | .newline | .eof | .str _ | .punct .semicolon | .punct .rightBrace | .punct .dot => true
  | _ => false

variable (ts : List Token)

/-- The token `n` places ahead, or the last one. -/
def peekAt (n : Nat) : Descent Token := do
  let c ← get
  set (c.look n)
  let found : Option Token := ts[min (c.position + n) (ts.length - 1)]?
  found

def peek : Descent Token :=
  peekAt ts 0

/-- Go past a token, unless it is the end. -/
def bump : Descent Unit := do
  let t ← peek ts
  if t.kind = .eof then return () else modify Cursor.move

def expectPunct (mark : Punct) : Descent Unit := do
  let t ← peek ts
  if t.kind = .punct mark then bump ts else unexpected (.punct mark) t

def expectName : Descent String := do
  let t ← peek ts
  match t.kind with
  | .word s =>
    if isKeyword s then unexpected .name t
    else do
      bump ts
      return s
  | _ => unexpected .name t

/-- Go past newlines and semicolons, and add the number of newlines. -/
def skipSeparators : Nat → Nat → Descent Nat
  | 0, _ => exhausted
  | limit + 1, newlines => do
    let t ← peek ts
    match t.kind with
    | .newline => do
      bump ts
      skipSeparators limit (newlines + 1)
    | .punct .semicolon => do
      bump ts
      skipSeparators limit newlines
    | _ => return newlines

/-- A declaration or a field has to end here. What ends it stays. -/
def expectTerminator (closing : Option Punct) : Descent Unit := do
  let t ← peek ts
  if terminates closing t.kind then return () else unexpected .terminator t

def typeName : Descent TypeExpr := do
  let name ← expectName ts
  let t ← peek ts
  if t.kind = .punct .dot then do
    bump ts
    let selected ← expectName ts
    return .name (some name) selected
  else return .name none name

def interfaceType (limit : Nat) : Descent TypeExpr := do
  bump ts
  expectPunct ts .leftBrace
  let _ ← skipSeparators ts limit 0
  expectPunct ts .rightBrace
  return .interface

section

variable (type : Descent TypeExpr)

def mapType : Descent TypeExpr := do
  bump ts
  expectPunct ts .leftBracket
  let key ← type
  expectPunct ts .rightBracket
  let value ← type
  return .map key value

def pointerType : Descent TypeExpr := do
  bump ts
  let target ← type
  return .pointer target

def sliceType : Descent TypeExpr := do
  bump ts
  expectPunct ts .rightBracket
  let element ← type
  return .slice element

/-- The type that begins with `t`; the types inside it are read by `type`. -/
def typeFrom (limit : Nat) (t : Token) : Descent TypeExpr :=
  match t.kind with
  | .word s =>
    if s = "struct" then throw ⟨t.position, .inlineStruct⟩
    else if s = "interface" then interfaceType ts limit
    else if s = "map" then mapType ts type
    else if isKeyword s then unexpected .type t
    else typeName ts
  | .punct .star => pointerType ts type
  | .punct .leftBracket => sliceType ts type
  | _ => unexpected .type t

end

def type : Nat → Descent TypeExpr
  | 0 => exhausted
  | limit + 1 => do
    enter .type
    let t ← peek ts
    typeFrom ts (type limit) (limit + 1) t

def fieldType (limit : Nat) : Descent (Option String × TypeExpr) := do
  let t ← peek ts
  match t.kind with
  | .punct .star => do
    bump ts
    let target ← typeName ts
    return (none, .pointer target)
  | .word s =>
    if isKeyword s then unexpected .field t
    else do
      let ahead ← peekAt ts 1
      if endsEmbedded ahead.kind then do
        let embedded ← typeName ts
        return (none, embedded)
      else do
        bump ts
        let next ← peek ts
        if next.kind = .punct .comma then throw ⟨next.position, .nameList⟩
        else do
          let given ← type ts limit
          return (some s, given)
  | _ => unexpected .field t

def tag : Descent (Option String) := do
  let t ← peek ts
  match t.kind with
  | .str s => do
    bump ts
    return some s
  | _ => return none

def field (limit : Nat) (blankBefore : Bool) : Descent FieldDecl := do
  let (name, type) ← fieldType ts limit
  let tag ← tag ts
  return ⟨name, type, tag, blankBefore⟩

def fields : Nat → List FieldDecl → Bool → Descent Body
  | 0, _, _ => exhausted
  | limit + 1, done, multiline => do
    enter .struct
    let newlines ← skipSeparators ts (limit + 1) 0
    let t ← peek ts
    if t.kind = .punct .rightBrace then do
      bump ts
      return .struct done (multiline || decide (0 < newlines))
    else do
      let next ← field ts (limit + 1) (decide (1 < newlines) && !done.isEmpty)
      expectTerminator ts (some .rightBrace)
      fields limit (done ++ [next]) (multiline || decide (0 < newlines))

def struct (limit : Nat) : Descent Body := do
  bump ts
  expectPunct ts .leftBrace
  fields ts limit [] false

/-- A type that may be a struct. -/
def body (limit : Nat) : Descent Body := do
  enter .type
  let t ← peek ts
  if t.kind = .word "struct" then struct ts limit
  else do
    let given ← typeFrom ts (type ts limit) limit t
    return .type given

def decl (limit : Nat) : Descent TypeDecl := do
  let t ← peek ts
  if t.kind = .word "type" then do
    bump ts
    let name ← expectName ts
    let body ← body ts limit
    return ⟨name, body⟩
  else unexpected .declaration t

def decls : Nat → List TypeDecl → Descent (List TypeDecl)
  | 0, _ => exhausted
  | limit + 1, done => do
    enter .file
    let _ ← skipSeparators ts (limit + 1) 0
    let t ← peek ts
    if t.kind = .eof then return done
    else do
      let next ← decl ts (limit + 1)
      expectTerminator ts none
      decls limit (done ++ [next])

/-- What reading all tokens gives, and where the position is then. -/
def file (limit : Nat) : Option (Except Error (List TypeDecl) × Cursor) :=
  (decls ts limit []).run.run .start

end Descent
end GoSchema.Source
