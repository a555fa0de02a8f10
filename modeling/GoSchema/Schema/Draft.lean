import GoSchema.Schema.Merge

/-! # Drafts

A draft holds what has been recorded about each declaration while a document is read: a body that
is fully known, or the field lists that objects have contributed to a struct.
-/

namespace GoSchema

inductive Entry where
  | plain (shape : Shape)
  /-- One field list per object, in the order of recording. -/
  | struct (contributions : List (List Field))
  deriving DecidableEq, Repr

/-- Entries ascending by number. -/
abbrev Draft := List (TypeId × Entry)

namespace Entry

/-- One more contribution. A plain body takes none. -/
def contribute (fields : List Field) : Entry → Entry
  | .struct contributions => .struct (contributions ++ [fields])
  | .plain shape => .plain shape

def shape : Entry → Shape
  | .plain shape => shape
  | .struct contributions => .struct (mergeFields contributions)

end Entry

namespace Draft

/-- Replace the entry of a number, or add one where the number belongs. -/
def update (id : TypeId) (f : Option Entry → Entry) : Draft → Draft
  | [] => [(id, f none)]
  | (i, e) :: rest =>
    if id < i then (id, f none) :: (i, e) :: rest
    else if id = i then (i, f (some e)) :: rest
    else (i, e) :: update id f rest

/-- Record a body that is fully known. -/
def declare (draft : Draft) (id : TypeId) (shape : Shape) : Draft :=
  draft.update id fun _ => .plain shape

def contribute (draft : Draft) (id : TypeId) (fields : List Field) : Draft :=
  draft.update id fun e => (e.getD (.struct [])).contribute fields

def decls (draft : Draft) : List Decl :=
  draft.map fun (id, e) => ⟨id, e.shape⟩

end Draft
end GoSchema
