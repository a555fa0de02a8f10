import GoSchema.Source.Columns
import GoSchema.Source.Grammar

/-! # The canonical layout

Declarations are separated by one blank line. The fields of a struct stand on lines of their own,
indented by a tab, with names, types and tags in columns; a blank line between fields is kept.
-/

namespace GoSchema.Source

def TypeExpr.text : TypeExpr → String
  | .name none n => n
  | .name (some package) n => package ++ "." ++ n
  | .pointer target => "*" ++ target.text
  | .slice element => "[]" ++ element.text
  | .map key value => "map[" ++ key.text ++ "]" ++ value.text
  | .interface => "interface\x7b\x7d"

/-- The cells of a field. An embedded field takes the columns of name and type. -/
def FieldDecl.row (field : FieldDecl) : Row :=
  match field.name, field.tag with
  | some name, some tag => [name, field.type.text, tag]
  | some name, none => [name, field.type.text]
  | none, some tag => [field.type.text, "", tag]
  | none, none => [field.type.text]

/-- The rows of a struct: one per field, and one without cells for each blank line. -/
def rows (fields : List FieldDecl) : List Row :=
  fields.flatMap fun field => if field.blankBefore then [[], field.row] else [field.row]

def bodyLine (line : String) : String :=
  if line = "" then "\n" else "\t" ++ line ++ "\n"

def Body.text : Body → String
  | .type t => t.text
  | .struct [] true => "struct \x7b\n\x7d"
  | .struct [] false => "struct\x7b\x7d"
  | .struct fields _ =>
    "struct \x7b\n" ++ String.join ((align (rows fields)).map bodyLine) ++ "\x7d"

def TypeDecl.text (decl : TypeDecl) : String :=
  "type " ++ decl.name ++ " " ++ decl.body.text

def print : List TypeDecl → String
  | [] => ""
  | decls => "\n\n".intercalate (decls.map TypeDecl.text) ++ "\n"

def format (text : String) : Except Error String :=
  (parse text).map print

end GoSchema.Source
