import GoSchema.Json.Reader

/-! # Samples

A sample is the value that types are inferred from. It differs from a JSON value in two ways:
every number is a double, and the members of an object ascend by key, so nothing that is inferred
can depend on the order in which a document lists them.
-/

namespace GoSchema

inductive Sample where
  | null
  | bool (value : Bool)
  | number (value : Binary64)
  | string (text : String)
  | array (items : List Sample)
  | object (members : List (String × Sample))
  deriving Repr, Inhabited

namespace Sample

/-- Add a member where its key belongs. A member that already has the key stays as it is. -/
def insertMember (key : String) (value : Sample) : List (String × Sample) → List (String × Sample)
  | [] => [(key, value)]
  | (k, v) :: rest =>
    if key < k then (key, value) :: (k, v) :: rest
    else if key = k then (k, v) :: rest
    else (k, v) :: insertMember key value rest

mutual
/-- The sample that a JSON value is. Of members with the same key the last one counts. -/
def ofJson : Json → Sample
  | .null => .null
  | .bool b => .bool b
  | .number n => .number n.toBinary64
  | .string s => .string s
  | .array items => .array (ofItems items)
  | .object members => .object (ofMembers members)

def ofItems : List Json → List Sample
  | [] => []
  | item :: rest => ofJson item :: ofItems rest

def ofMembers : List (String × Json) → List (String × Sample)
  | [] => []
  | (key, value) :: rest => insertMember key (ofJson value) (ofMembers rest)
end

def parse (text : String) : Except Json.Error Sample :=
  (Json.parse text).map ofJson

mutual
/-- In every object the keys strictly ascend. -/
def Ordered : Sample → Prop
  | .array items => OrderedItems items
  | .object members => (members.map (·.1)).Pairwise (· < ·) ∧ OrderedMembers members
  | _ => True

def OrderedItems : List Sample → Prop
  | [] => True
  | item :: rest => item.Ordered ∧ OrderedItems rest

def OrderedMembers : List (String × Sample) → Prop
  | [] => True
  | (_, value) :: rest => value.Ordered ∧ OrderedMembers rest
end

end Sample
end GoSchema
