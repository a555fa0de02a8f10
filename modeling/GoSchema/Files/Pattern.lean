import GoSchema.Files.World

/-! # Path patterns

In a pattern `?` stands for any character, `*` for any run of characters, `[…]` for a character
of a class, and a component `**` for any number of folders. A leading dot is a character like any
other.
-/

namespace GoSchema.Files

inductive CharRange where
  | single (c : Char)
  | range (first last : Char)
  deriving DecidableEq, Repr

def CharRange.contains (c : Char) : CharRange → Bool
  | .single d => c == d
  | .range first last => first ≤ c && c ≤ last

inductive PatternToken where
  | char (c : Char)
  | anyChar
  | anyRun
  /-- Any number of folders. -/
  | anyFolders
  | oneOf (ranges : List CharRange)
  | noneOf (ranges : List CharRange)
  deriving DecidableEq, Repr

inductive PatternFault where
  | wildcards
  | recursiveWildcards
  | charClass
  deriving DecidableEq, Repr

def PatternFault.message : PatternFault → String
  | .wildcards => "wildcards are either regular `*` or recursive `**`"
  | .recursiveWildcards => "recursive wildcards must form a single path component"
  | .charClass => "invalid range pattern"

/-- A fault and the number of the character where it shows. -/
structure PatternError where
  position : Nat
  fault : PatternFault
  deriving DecidableEq, Repr

def PatternError.message (e : PatternError) : String :=
  s!"Pattern syntax error near position {e.position}: {e.fault.message}"

namespace Pattern

def ranges : List Char → List CharRange
  | first :: '-' :: last :: rest => .range first last :: ranges rest
  | c :: rest => .single c :: ranges rest
  | [] => []

/-- The class after an opening bracket, and how many characters it takes with the closing one.
The first character of a class may be a closing bracket. -/
def charClass? (cs : List Char) : Option (PatternToken × Nat) :=
  match cs with
  | '!' :: c :: rest => (closed c rest).map fun text => (.noneOf (ranges text), text.length + 2)
  | '!' :: [] => none
  | c :: rest => (closed c rest).map fun text => (.oneOf (ranges text), text.length + 1)
  | [] => none
where
  closed (c : Char) (rest : List Char) : Option (List Char) :=
    let more := rest.takeWhile (· != ']')
    if more.length < rest.length then some (c :: more) else none

/-- The tokens of a pattern. `i` is the number of the first character and `before` the character
before it. -/
def tokensFrom (i : Nat) (before : Option Char) (cs : List Char) :
    Except PatternError (List PatternToken) :=
  match cs with
  | [] => .ok []
  | c :: rest =>
    let continued (token : PatternToken) (n : Nat) : Except PatternError (List PatternToken) :=
      (tokensFrom (i + n + 1) ((rest.take n).getLast?.or (some c)) (rest.drop n)).map (token :: ·)
    if c = '?' then continued .anyChar 0
    else if c = '*' then
      match (rest.takeWhile (· == '*')).length with
      | 0 => continued .anyRun 0
      | 1 =>
        if before.isSome ∧ before ≠ some '/' then .error ⟨i - 1, .recursiveWildcards⟩
        else
          match rest.drop 1 with
          | [] => continued .anyFolders 1
          | '/' :: _ => continued .anyFolders 2
          | _ => .error ⟨i + 2, .recursiveWildcards⟩
      | _ => .error ⟨i + 2, .wildcards⟩
    else if c = '[' then
      match charClass? rest with
      | some (token, n) => continued token n
      | none => .error ⟨i, .charClass⟩
    else continued (.char c) 0
termination_by cs.length
decreasing_by simp only [List.length_cons, List.length_drop]; omega

def tokens (text : String) : Except PatternError (List PatternToken) :=
  tokensFrom 0 none text.toList

def accepts (token : PatternToken) (c : Char) : Bool :=
  match token with
  | .char d => c == d
  | .anyChar | .anyRun | .anyFolders => true
  | .oneOf rs => rs.any (·.contains c)
  | .noneOf rs => !rs.any (·.contains c)

/-- May a token stand for any number of characters? -/
def repeats : PatternToken → Bool
  | .anyRun | .anyFolders => true
  | _ => false

/-- Do tokens stand for a whole name? -/
def covers : List PatternToken → List Char → Bool
  | [], cs => cs.isEmpty
  | t :: ts, [] => repeats t && covers ts []
  | t :: ts, c :: cs =>
    if repeats t then covers ts (c :: cs) || covers (t :: ts) cs
    else accepts t c && covers ts cs
termination_by ts cs => ts.length + cs.length

/-- The text of tokens that are all characters. -/
def literal? (ts : List PatternToken) : Option String :=
  (ts.mapM fun
    | PatternToken.char c => some c
    | _ => none).map String.ofList

/-- The part of a pattern between two slashes. -/
inductive Component where
  | literal (name : String)
  | names (tokens : List PatternToken)
  | folders
  deriving DecidableEq, Repr

namespace Component

def ofTokens (ts : List PatternToken) : Component :=
  match literal? ts with
  | some name => .literal name
  | none => if ts.contains .anyFolders then .folders else .names ts

def covers (name : String) : Component → Bool
  | .literal n => name == n
  | .names ts => Pattern.covers ts name.toList
  | .folders => true

end Component

/-- Consecutive components `**` count once. -/
def collapse : List Component → List Component
  | .folders :: .folders :: rest => collapse (.folders :: rest)
  | c :: rest => c :: collapse rest
  | [] => []

/-- The components of a pattern. The whole pattern has to be well-formed as well as each of its
components. -/
def components (pattern : String) : Except PatternError (List Component) := do
  let _ ← tokens pattern
  let parts := (pattern.splitOn "/").drop (if pattern.startsWith "/" then 1 else 0)
  let parts := if parts.getLast? = some "" then parts.dropLast else parts
  let components ← parts.mapM fun part => (tokens part).map Component.ofTokens
  return collapse components

/-- The path of an entry of a folder. Entries of the working folder have bare names. -/
def join (folder name : String) : String :=
  if folder = "." then name
  else if folder.endsWith "/" then folder ++ name
  else folder ++ "/" ++ name

/-- The paths `..` and `.` of a folder, which only a pattern with a leading dot stands for. -/
def dotEntries (folder : String) (ts : List PatternToken) : List String :=
  if ts.head? = some (.char '.') then
    ([".", ".."].filter fun name => covers ts name.toList).reverse.map fun name =>
      if folder.endsWith "/" then folder ++ name else folder ++ "/" ++ name
  else []

/-- The paths that components stand for, starting at a folder: the entries of a folder ascend, and
a folder comes before what it holds. -/
def expand (w : World) : List Component → String → List String
  | [], path => [path]
  | .literal name :: rest, folder =>
    let path := join folder name
    let there := if name = "." ∨ name = ".." then w.isFolder folder else (w.find? path).isSome
    if there then expand w rest path else []
  | .names ts :: rest, folder =>
    if w.isFolder folder then
      let names := (((w.find? folder).map Node.entries).getD []).map (·.1)
      let chosen := names.filter fun name => covers ts name.toList
      (dotEntries folder ts ++ chosen.map (join folder)).flatMap (expand w rest)
    else []
  | [.folders], folder =>
    (belowFolder w folder).filterMap fun (path, node) =>
      if node.isFolder then some (pathOf folder path) else none
  | .folders :: next :: rest, folder =>
    (belowFolder w folder).flatMap fun (path, _) =>
      if next.covers (path.getLast?.getD "") then expand w rest (pathOf folder path) else []
where
  belowFolder (w : World) (folder : String) : List (List String × Node) :=
    ((w.find? folder).map Node.descendants).getD []
  pathOf (folder : String) (path : List String) : String :=
    join folder ("/".intercalate path)

/-- The paths that a pattern stands for, in order. A pattern that ends in a slash stands for
folders only. -/
def paths (w : World) (pattern : String) : Except PatternError (List String) := do
  let cs ← components pattern
  let found := expand w cs (if pattern.startsWith "/" then "/" else ".")
  return if pattern.endsWith "/" then found.filter w.isFolder else found

end Pattern
end GoSchema.Files
