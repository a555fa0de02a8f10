import GoSchema.FieldName
import GoSchema.Options
import GoSchema.Schema.Type
import GoSchema.Source.Format
import GoSchema.Text.Blank

/-! # Rendering declarations as Go

Declarations are written one after the other and the whole text is then laid out canonically. A
key that gives no Go name shows as an error of that layout.
-/

namespace GoSchema

def Scalar.source : Scalar → String
  | .bool => "bool"
  | .int => "int"
  | .float => "float64"
  | .string => "string"

def TypeId.source (id : TypeId) : String :=
  "J2S" ++ toString id

def Ty.source : Ty → String
  | .scalar s => s.source
  | .any => "interface\x7b\x7d"
  | .named id => TypeId.source id
  | .seq element => "[]" ++ element.source

namespace Field

/-- Does the tag of a field say `,omitempty`? -/
def omitsEmpty (policy : OmitEmpty) (field : Field) : Bool :=
  match policy with
  | .none => false
  | .allFields => true
  | .optionalFieldsOnly => field.optional

/-- The tag of a field, without the backticks around it. -/
def tagText (options : Options) (field : Field) : String :=
  options.effectiveTagName ++ ":\"" ++ field.key ++
    (if field.omitsEmpty options.omitEmpty then ",omitempty" else "") ++ "\""

/-- The line of a field. An optional field has a pointer type. -/
def source (options : Options) (field : Field) : String :=
  FieldName.ofKey field.key ++ " " ++ (if field.optional then "*" else "") ++ field.type.source ++
    (if options.useTag then " `" ++ field.tagText options ++ "`" else "") ++ "\n"

end Field

/-- Fields ascending by key; equal keys keep their order. -/
def sortedByKey (fields : List Field) : List Field :=
  fields.mergeSort fun a b => a.key ≤ b.key

def Shape.source (options : Options) : Shape → String
  | .scalar s => s.source
  | .alias type => type.source
  | .struct fields =>
    "struct \x7b\n" ++ String.join ((sortedByKey fields).map (·.source options)) ++ "\x7d"

def Decl.source (options : Options) (decl : Decl) : String :=
  "type " ++ TypeId.source decl.id ++ " " ++ decl.shape.source options

/-- Append a declaration to a text, after a blank line unless the text is empty. -/
def appendDecl (options : Options) (text : String) (decl : Decl) : String :=
  (if text = "" then "" else text ++ "\n\n") ++ decl.source options

def emit (options : Options) (text : String) (decls : List Decl) : String :=
  decls.foldl (appendDecl options) text

/-- The canonical text of declarations, without a newline at its end. -/
def render (options : Options) (decls : List Decl) : Except Source.Error String :=
  (Source.format (emit options "" decls)).map Text.trim

end GoSchema
