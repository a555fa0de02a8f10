/-! # Slots

A slot is a place in a document up to the position in an array: the path of keys and element
steps that lead to it from the root.
-/

namespace GoSchema

inductive Step where
  /-- Into the member of an object with a given key. -/
  | key (name : String)
  /-- Into any element of an array. -/
  | item
  deriving DecidableEq, Repr

/-- The steps that lead to a slot, the last one first. -/
abbrev Slot := List Step

namespace Slot

def root : Slot :=
  []

def member (slot : Slot) (key : String) : Slot :=
  .key key :: slot

def element (slot : Slot) : Slot :=
  .item :: slot

end Slot
end GoSchema
