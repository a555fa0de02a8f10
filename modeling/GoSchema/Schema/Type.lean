/-! # Declarations

The types that are inferred for the places of a document, and the declarations that name them.
No JSON value occurs here.
-/

namespace GoSchema

/-- The class of a value that has no parts. -/
inductive Scalar where
  | bool
  | int
  | float
  | string
  deriving DecidableEq, Repr

/-- Number of a declaration, from 1 upwards. -/
abbrev TypeId := Nat

/-- The declaration of a whole document. -/
def TypeId.root : TypeId := 1

/-- Type of a place: a field, an array element or the body of a declaration. -/
inductive Ty where
  | scalar (scalar : Scalar)
  | any
  /-- The struct declared under a number. -/
  | named (id : TypeId)
  | seq (element : Ty)
  deriving DecidableEq, Repr, Inhabited

namespace Ty

/-- The common type: equal types unify to themselves, all others to `any`. -/
def unify (a b : Ty) : Ty :=
  if a = b then a else .any

/-- The common type of all elements; without elements it is `any`. -/
def unifyAll : List Ty → Ty
  | [] => .any
  | t :: ts => ts.foldl unify t

end Ty

structure Field where
  /-- The key as it stands in the document. -/
  key : String
  type : Ty
  /-- Is it missing from some object of the struct? -/
  optional : Bool
  deriving DecidableEq, Repr

inductive Shape where
  | scalar (scalar : Scalar)
  | alias (type : Ty)
  | struct (fields : List Field)
  deriving DecidableEq, Repr

structure Decl where
  id : TypeId
  shape : Shape
  deriving DecidableEq, Repr

end GoSchema
