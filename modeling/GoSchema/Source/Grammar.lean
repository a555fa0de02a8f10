import GoSchema.Source.Lexer
import GoSchema.Source.Syntax

/-! # From tokens to declarations

A file is a list of declarations, each a type name or constructor or, only at the top of a
declaration, a struct. It is read token by token: the phase of a reading says what may come next,
and the first token that may not come is refused.
-/

namespace GoSchema.Source

/-- A type constructor that waits for one of its types. -/
inductive Wrapper where
  | pointer
  | slice
  | mapKey
  | mapValue (key : TypeExpr)
  deriving DecidableEq, Repr

/-- A struct up to some field. -/
structure OpenStruct where
  name : String
  fields : List FieldDecl
  /-- Has a newline occurred between the braces? -/
  multiline : Bool
  deriving DecidableEq, Repr

/-- What a type belongs to once its constructors are applied. -/
inductive Target where
  | body (name : String)
  /-- A field, embedded when it has no name. -/
  | field (struct : OpenStruct) (blankBefore : Bool) (name : Option String)
  deriving DecidableEq, Repr

/-- A place where a type is missing: its constructors, innermost first, and what it belongs to. -/
structure Hole where
  wrappers : List Wrapper
  target : Target
  deriving DecidableEq, Repr

/-- What may come next. -/
inductive Phase where
  /-- A declaration, a separator or the end. -/
  | atDecl
  | atDeclName
  | atBody (name : String)
  /-- A separator or the end. -/
  | afterDecl
  | atType (hole : Hole)
  /-- A dot, or whatever follows the type. -/
  | afterTypeName (hole : Hole) (name : String)
  | atSelector (hole : Hole) (package : String)
  | atSliceEnd (hole : Hole)
  | atMap (hole : Hole)
  | atMapKeyEnd (hole : Hole) (key : TypeExpr)
  | atInterface (hole : Hole)
  /-- The closing brace of an interface, or a separator. -/
  | atInterfaceEnd (hole : Hole)
  | atStruct (name : String)
  /-- A field, a separator or the closing brace, after some newlines. -/
  | atField (struct : OpenStruct) (newlines : Nat)
  /-- The type of a named field, or whatever follows an embedded one. -/
  | afterFieldName (struct : OpenStruct) (blankBefore : Bool) (name : String)
  | atEmbeddedPointer (struct : OpenStruct) (blankBefore : Bool)
  /-- A tag, or whatever follows a field. -/
  | afterFieldType (struct : OpenStruct) (field : FieldDecl)
  | afterField (struct : OpenStruct)
  /-- Nothing: the end has come. -/
  | finished
  deriving DecidableEq, Repr

structure Reading where
  decls : List TypeDecl
  phase : Phase
  deriving DecidableEq, Repr

namespace Reading

def start : Reading :=
  ⟨[], .atDecl⟩

/-- The same declarations have been read, and now something else may come next. -/
def move (r : Reading) (phase : Phase) : Reading :=
  { r with phase }

def declare (r : Reading) (decl : TypeDecl) : Reading :=
  ⟨r.decls ++ [decl], .afterDecl⟩

/-- Fill a hole with a complete type. -/
def fill (r : Reading) (target : Target) : List Wrapper → TypeExpr → Reading
  | [], type =>
    match target with
    | .body name => r.declare ⟨name, .type type⟩
    | .field struct blankBefore name =>
      r.move (.afterFieldType struct ⟨name, type, none, blankBefore⟩)
  | .pointer :: wrappers, type => r.fill target wrappers (.pointer type)
  | .slice :: wrappers, type => r.fill target wrappers (.slice type)
  | .mapKey :: wrappers, type => r.move (.atMapKeyEnd ⟨wrappers, target⟩ type)
  | .mapValue key :: wrappers, type => r.fill target wrappers (.map key type)

def complete (r : Reading) (hole : Hole) (type : TypeExpr) : Reading :=
  r.fill hole.target hole.wrappers type

def wrap (r : Reading) (hole : Hole) (wrapper : Wrapper) : Reading :=
  r.move (.atType ⟨wrapper :: hole.wrappers, hole.target⟩)

end Reading

def OpenStruct.push (struct : OpenStruct) (field : FieldDecl) : OpenStruct :=
  { struct with fields := struct.fields ++ [field] }

def OpenStruct.decl (struct : OpenStruct) : TypeDecl :=
  ⟨struct.name, .struct struct.fields struct.multiline⟩

namespace Reading

def refuse (expected : Expected) (found : Kind) : Except Cause Reading :=
  .error (.unexpected expected found)

def enterType (r : Reading) (hole : Hole) (k : Kind) : Except Cause Reading :=
  match k with
  | .word s =>
    if s = "struct" then .error .inlineStruct
    else if s = "interface" then .ok (r.move (.atInterface hole))
    else if s = "map" then .ok (r.move (.atMap hole))
    else if isKeyword s then refuse .type k
    else .ok (r.move (.afterTypeName hole s))
  | .punct .star => .ok (r.wrap hole .pointer)
  | .punct .leftBracket => .ok (r.move (.atSliceEnd hole))
  | _ => refuse .type k

/-- The reading after a name that has to come. -/
def enterName (k : Kind) (next : String → Reading) : Except Cause Reading :=
  match k with
  | .word s => if isKeyword s then refuse .name k else .ok (next s)
  | _ => refuse .name k

def enterPunct (mark : Punct) (k : Kind) (next : Reading) : Except Cause Reading :=
  if k = .punct mark then .ok next else refuse (.punct mark) k

def leaveDecl (r : Reading) (k : Kind) : Except Cause Reading :=
  match k with
  | .newline | .punct .semicolon => .ok (r.move .atDecl)
  | .eof => .ok (r.move .finished)
  | _ => refuse .terminator k

def leaveField (r : Reading) (struct : OpenStruct) (k : Kind) : Except Cause Reading :=
  match k with
  | .newline => .ok (r.move (.atField { struct with multiline := true } 1))
  | .punct .semicolon => .ok (r.move (.atField struct 0))
  | .punct .rightBrace => .ok (r.declare struct.decl)
  | .eof => refuse .field k
  | _ => refuse .terminator k

def leaveFieldType (r : Reading) (struct : OpenStruct) (field : FieldDecl) (k : Kind) :
    Except Cause Reading :=
  match k with
  | .str s => .ok (r.move (.afterField (struct.push { field with tag := some s })))
  | _ => r.leaveField (struct.push field) k

/-- The reading after what follows a type that has been completed. -/
def leaveType (r : Reading) (k : Kind) : Except Cause Reading :=
  match r.phase with
  | .afterDecl => r.leaveDecl k
  | .afterFieldType struct field => r.leaveFieldType struct field k
  | .atMapKeyEnd hole key => enterPunct .rightBracket k (r.wrap hole (.mapValue key))
  | _ => refuse .terminator k

/-- The reading after a token between the braces of a struct. -/
def enterField (r : Reading) (struct : OpenStruct) (newlines : Nat) (k : Kind) :
    Except Cause Reading :=
  let blankBefore := decide (1 < newlines) && !struct.fields.isEmpty
  match k with
  | .newline => .ok (r.move (.atField { struct with multiline := true } (newlines + 1)))
  | .punct .semicolon => .ok (r.move (.atField struct newlines))
  | .punct .rightBrace => .ok (r.declare struct.decl)
  | .punct .star => .ok (r.move (.atEmbeddedPointer struct blankBefore))
  | .word s =>
    if isKeyword s then refuse .field k else .ok (r.move (.afterFieldName struct blankBefore s))
  | _ => refuse .field k

def leaveFieldName (r : Reading) (struct : OpenStruct) (blankBefore : Bool) (name : String)
    (k : Kind) : Except Cause Reading :=
  match k with
  | .punct .dot => .ok (r.move (.atSelector ⟨[], .field struct blankBefore none⟩ name))
  | .newline | .punct .semicolon | .punct .rightBrace | .str _ | .eof =>
    r.leaveFieldType struct ⟨none, .name none name, none, blankBefore⟩ k
  | .punct .comma => .error .nameList
  | _ => r.enterType ⟨[], .field struct blankBefore (some name)⟩ k

def step (r : Reading) (k : Kind) : Except Cause Reading :=
  match r.phase with
  | .atDecl =>
    match k with
    | .newline | .punct .semicolon => .ok r
    | .eof => .ok (r.move .finished)
    | .word s => if s = "type" then .ok (r.move .atDeclName) else refuse .declaration k
    | _ => refuse .declaration k
  | .atDeclName => enterName k fun s => r.move (.atBody s)
  | .atBody name =>
    if k = .word "struct" then .ok (r.move (.atStruct name))
    else r.enterType ⟨[], .body name⟩ k
  | .afterDecl => r.leaveDecl k
  | .atType hole => r.enterType hole k
  | .afterTypeName hole name =>
    if k = .punct .dot then .ok (r.move (.atSelector hole name))
    else (r.complete hole (.name none name)).leaveType k
  | .atSelector hole package => enterName k fun s => r.complete hole (.name (some package) s)
  | .atSliceEnd hole => enterPunct .rightBracket k (r.wrap hole .slice)
  | .atMap hole => enterPunct .leftBracket k (r.wrap hole .mapKey)
  | .atMapKeyEnd hole key => enterPunct .rightBracket k (r.wrap hole (.mapValue key))
  | .atInterface hole => enterPunct .leftBrace k (r.move (.atInterfaceEnd hole))
  | .atInterfaceEnd hole =>
    if k = .newline ∨ k = .punct .semicolon then .ok r
    else enterPunct .rightBrace k (r.complete hole .interface)
  | .atStruct name => enterPunct .leftBrace k (r.move (.atField ⟨name, [], false⟩ 0))
  | .atField struct newlines => r.enterField struct newlines k
  | .afterFieldName struct blankBefore name => r.leaveFieldName struct blankBefore name k
  | .atEmbeddedPointer struct blankBefore =>
    enterName k fun s => r.move (.afterTypeName ⟨[.pointer], .field struct blankBefore none⟩ s)
  | .afterFieldType struct field => r.leaveFieldType struct field k
  | .afterField struct => r.leaveField struct k
  | .finished => .ok r

/-- A refused token: its number and the cause. -/
abbrev Refusal := Nat × Cause

/-- Read tokens, the first of which has the number `i`, up to the end of the text. A list without
an end is read as if the end followed. -/
def run (r : Reading) (i : Nat) : List Kind → Except Refusal (List TypeDecl)
  | [] =>
    match r.step .eof with
    | .error cause => .error (i, cause)
    | .ok r => .ok r.decls
  | k :: ks =>
    match r.step k with
    | .error cause => .error (i, cause)
    | .ok r => if r.phase = .finished then .ok r.decls else r.run (i + 1) ks

end Reading

/-- The declarations that tokens spell, or the first token that cannot come where it stands. -/
def declsOfKinds (kinds : List Kind) : Except Reading.Refusal (List TypeDecl) :=
  Reading.start.run 0 kinds

/-- The declarations that tokens spell. A refused token is blamed at its place. -/
def declsOfTokens (ts : List Token) : Except Error (List TypeDecl) :=
  match declsOfKinds (ts.map (·.kind)) with
  | .ok decls => .ok decls
  | .error (i, cause) => .error ⟨((ts[i]?).map (·.position)).getD .start, cause⟩

def parse (text : String) : Except Error (List TypeDecl) :=
  match tokens text with
  | .error e => .error e
  | .ok ts => declsOfTokens ts

end GoSchema.Source
