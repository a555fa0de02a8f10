/-! # Field names

A field is named after its key: `snake_case` and `kebab-case` become `SnakeCase` and `KebabCase`.
Only a separator before an ASCII letter marks the start of a word; every other character stays
as it is.
-/

namespace GoSchema.FieldName

def isSeparator (c : Char) : Bool :=
  c == '_' || c == '-'

/-- Drop each separator before an ASCII letter and capitalise that letter. -/
def joinWords : List Char → List Char
  | c :: d :: rest =>
    if isSeparator c && d.isAlpha then d.toUpper :: joinWords rest
    else c :: joinWords (d :: rest)
  | [c] => [c]
  | [] => []

def ofChars : List Char → List Char
  | c :: rest => if c.isAlpha then c.toUpper :: joinWords rest else joinWords (c :: rest)
  | [] => []

def ofKey (key : String) : String :=
  String.ofList (ofChars key.toList)

end GoSchema.FieldName
