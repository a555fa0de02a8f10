/-! # Files and folders

A folder lists its entries ascending by name. Paths inside a folder are lists of names.
-/

namespace GoSchema.Files

inductive Node where
  | file (content : ByteArray)
  | folder (entries : List (String × Node))

namespace Node

instance : Inhabited Node :=
  ⟨.folder []⟩

def isFolder : Node → Bool
  | .folder _ => true
  | .file _ => false

/-- The entries of a folder; a file has none. -/
def entries : Node → List (String × Node)
  | .folder entries => entries
  | .file _ => []

/-- Set the entry of a name, where the name belongs. -/
def putEntry (name : String) (node : Node) : List (String × Node) → List (String × Node)
  | [] => [(name, node)]
  | (n, old) :: rest =>
    if name < n then (name, node) :: (n, old) :: rest
    else if name = n then (name, node) :: rest
    else (n, old) :: putEntry name node rest

def find? : List String → Node → Option Node
  | [], node => some node
  | name :: rest, node => (node.entries.lookup name).bind (find? rest)

/-- Put something at the end of a path. Folders on the way are added; a file on the way stays. -/
def set (new : Node) : List String → Node → Node
  | [], _ => new
  | _ :: _, .file content => .file content
  | name :: rest, .folder entries =>
    .folder (putEntry name (set new rest ((entries.lookup name).getD (.folder []))) entries)

mutual
/-- All paths below a node, each folder before what it holds. -/
def descendants : Node → List (List String × Node)
  | .file _ => []
  | .folder entries => entryDescendants entries

def entryDescendants : List (String × Node) → List (List String × Node)
  | [] => []
  | (name, node) :: rest =>
    ([name], node) :: node.descendants.map (fun (path, n) => (name :: path, n)) ++
      entryDescendants rest
end

end Node
end GoSchema.Files
