import GoSchema.Number.Layout
import GoSchema.Sample
import GoSchema.Schema.Type

/-! # Classes of scalars

A number is fractional when there is a point in its text. A number that was given with an all-zero
fraction is therefore an integer, and so are infinities and NaN, which have no digits at all.
-/

namespace GoSchema

def Scalar.ofNumber (x : Binary64) : Scalar :=
  if '.' ∈ x.display then .float else .int

def Scalar.ofSample? : Sample → Option Scalar
  | .bool _ => some .bool
  | .number x => some (.ofNumber x)
  | .string _ => some .string
  | .null | .array _ | .object _ => none

end GoSchema
