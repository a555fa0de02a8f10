/-! # Options

What a conversion writes besides names and types.
-/

namespace GoSchema

inductive OmitEmpty where
  | none
  | allFields
  /-- Those of fields that are missing from some merged object. -/
  | optionalFieldsOnly
  deriving DecidableEq, Repr

structure Options where
  useTag : Bool
  /-- The key of the tag; without tags it does not matter. -/
  tagName : String
  omitEmpty : OmitEmpty
  deriving DecidableEq, Repr

namespace Options

def defaultTagName : String :=
  "json"

/-- Tags under `json`, never with `,omitempty`. -/
def default : Options :=
  ⟨true, defaultTagName, .none⟩

instance : Inhabited Options :=
  ⟨default⟩

/-- The key that tags are written with: an empty one falls back to the default. -/
def effectiveTagName (options : Options) : String :=
  if options.tagName = "" then defaultTagName else options.tagName

end Options
end GoSchema
