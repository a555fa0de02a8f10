import GoSchema.Files.Node

/-! # What a run can see and change

A run sees a tree of files, a working folder in it and the text of its standard input. A path is
relative to the working folder unless it begins with a slash. Empty parts and `.` stay in a
folder, `..` leads to the folder above, and only folders can be passed through.
-/

namespace GoSchema.Files

inductive OsFault where
  | notFound
  | exists
  | notFolder
  | isFolder
  deriving DecidableEq, Repr

def OsFault.message : OsFault → String
  | .notFound => "No such file or directory (os error 2)"
  | .exists => "File exists (os error 17)"
  | .notFolder => "Not a directory (os error 20)"
  | .isFolder => "Is a directory (os error 21)"

structure World where
  root : Node
  /-- Names of the folders from the root to the working folder. -/
  working : List String
  stdin : ByteArray
  deriving Inhabited

namespace World

def parts (path : String) : List String :=
  path.splitOn "/"

/-- Follow the parts of a path. `here` holds the names that lead to a node, the last one first. -/
def follow (root : Node) (here : List String) : List String → Except OsFault (List String)
  | [] => .ok here
  | part :: rest =>
    match root.find? here.reverse with
    | none => .error .notFound
    | some (.file _) => .error .notFolder
    | some (.folder entries) =>
      if part = "" ∨ part = "." then follow root here rest
      else if part = ".." then follow root here.tail rest
      else if (entries.lookup part).isSome then follow root (part :: here) rest
      else .error .notFound

/-- The names that lead from the root to what some parts of a path refer to. -/
def locateParts (w : World) (absolute : Bool) (ps : List String) : Except OsFault (List String) :=
  (follow w.root (if absolute then [] else w.working.reverse) ps).map List.reverse

def locate (w : World) (path : String) : Except OsFault (List String) :=
  if path = "" then .error .notFound else w.locateParts (path.startsWith "/") (parts path)

def find? (w : World) (path : String) : Option Node :=
  (w.locate path).toOption.bind fun names => w.root.find? names

def isFolder (w : World) (path : String) : Bool :=
  ((w.find? path).map Node.isFolder).getD false

def read (w : World) (path : String) : Except OsFault ByteArray := do
  let names ← w.locate path
  match w.root.find? names with
  | some (.file content) => return content
  | some (.folder _) => throw .isFolder
  | none => throw .notFound

def put (w : World) (absolute : Bool) (folder : List String) (name : String) (node : Node) :
    Except OsFault World := do
  let names ← w.locateParts absolute folder
  match w.root.find? names with
  | some (.folder _) => return { w with root := Node.set node (names ++ [name]) w.root }
  | some (.file _) => throw .notFolder
  | none => throw .notFound

/-- Create a folder in one that is there already. A folder that is there will do. -/
def createFolder (w : World) (absolute : Bool) (above : List String) (name : String) :
    Except OsFault World :=
  match w.locateParts absolute (above ++ [name]) with
  | .ok names =>
    match w.root.find? names with
    | some (.folder _) => .ok w
    | _ => .error .exists
  | .error .notFound => w.put absolute above name (.folder [])
  | .error fault => .error fault

/-- Create a folder, given the parts of its path in reverse; folders above it are created as
needed. They stay when the folder itself cannot be created. -/
def createFolders (w : World) (absolute : Bool) : List String → World × Except OsFault Unit
  | [] => (w, .ok ())
  | name :: above =>
    match w.createFolder absolute above.reverse name with
    | .ok created => (created, .ok ())
    | .error .notFound =>
      match w.createFolders absolute above with
      | (prepared, .ok ()) =>
        match prepared.createFolder absolute above.reverse name with
        | .ok created => (created, .ok ())
        | .error fault => (prepared, .error fault)
      | failed => failed
    | .error fault => (w, .error fault)

/-- Write a file. It replaces a file that is there already. -/
def write (w : World) (path : String) (content : ByteArray) : Except OsFault World :=
  match w.locate path with
  | .ok names =>
    match w.root.find? names with
    | some (.folder _) => .error .isFolder
    | _ => .ok { w with root := Node.set (.file content) names w.root }
  | .error .notFound =>
    match (parts path).reverse with
    | [] => .error .notFound
    | "" :: _ => .error (if path = "" then .notFound else .isFolder)
    | name :: above => w.put (path.startsWith "/") above.reverse name (.file content)
  | .error fault => .error fault

/-- Drop the parts that do not lead anywhere from the front of a list, except for the last one. -/
def dropIdle : List String → List String
  | [part] => [part]
  | part :: rest => if part = "" ∨ part = "." then dropIdle rest else part :: rest
  | [] => []

/-- The path of the folder that holds what a path refers to: empty when the path is a single part,
and `none` for the root. -/
def parent? (path : String) : Option String :=
  match dropIdle (parts path).reverse with
  | [] => none
  | [""] => none
  | _ :: above =>
    match (dropIdle above).reverse with
    | [""] => some "/"
    | ps => some ("/".intercalate ps)

end World
end GoSchema.Files
