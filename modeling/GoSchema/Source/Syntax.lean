/-! # Go declarations

What a text of type declarations means, with the little of its layout that formatting keeps.
-/

namespace GoSchema.Source

inductive TypeExpr where
  /-- A name, after the name of its package if there is one. -/
  | name (package : Option String) (name : String)
  | pointer (target : TypeExpr)
  | slice (element : TypeExpr)
  | map (key value : TypeExpr)
  | interface
  deriving DecidableEq, Repr, Inhabited

structure FieldDecl where
  /-- An embedded field has none. -/
  name : Option String
  type : TypeExpr
  /-- A string literal with its quotes. -/
  tag : Option String
  /-- Does a blank line separate the field from the one before it? -/
  blankBefore : Bool
  deriving DecidableEq, Repr

inductive Body where
  | type (type : TypeExpr)
  /-- A struct, and whether its braces stand on different lines. -/
  | struct (fields : List FieldDecl) (multiline : Bool)
  deriving DecidableEq, Repr

structure TypeDecl where
  name : String
  body : Body
  deriving DecidableEq, Repr

end GoSchema.Source
