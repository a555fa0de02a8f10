import GoSchema.Schema.Type

/-! # Merging objects

Every object of a struct contributes its list of fields. The merged struct has one field per key,
in the order in which keys are first seen; its type is the common type of all occurrences, and it
is optional unless the key occurs as often as there are contributions.
-/

namespace GoSchema

structure Tally where
  key : String
  type : Ty
  count : Nat
  deriving DecidableEq, Repr

namespace Tally

def record (tallies : List Tally) (field : Field) : List Tally :=
  match tallies with
  | [] => [⟨field.key, field.type, 1⟩]
  | t :: rest =>
    if t.key = field.key then ⟨t.key, t.type.unify field.type, t.count + 1⟩ :: rest
    else t :: record rest field

/-- The tallies of a list of fields, keys in the order in which they are first seen. -/
def ofFields (fields : List Field) : List Tally :=
  fields.foldl record []

end Tally

/-- The fields of the struct to which the given field lists contribute. -/
def mergeFields (contributions : List (List Field)) : List Field :=
  (Tally.ofFields contributions.flatten).map fun t =>
    ⟨t.key, t.type, t.count != contributions.length⟩

end GoSchema
