import GoSchema.Source.Token
import GoSchema.Text.QuotedChar

/-! # Errors in Go declarations -/

namespace GoSchema.Source

inductive Expected where
  | punct (mark : Punct)
  | name
  /-- The end of a declaration or a field. -/
  | terminator
  | declaration
  | type
  | field
  deriving DecidableEq, Repr

def Expected.description : Expected → String
  | .punct p => "'" ++ p.char.toString ++ "'"
  | .name => "'IDENT'"
  | .terminator => "';'"
  | .declaration => "declaration"
  | .type => "type"
  | .field => "field name or embedded type"

inductive Cause where
  | illegalCharacter (c : Char)
  | comment
  | openRawString
  | openString
  | unexpected (expected : Expected) (found : Kind)
  | inlineStruct
  | nameList
  deriving DecidableEq, Repr

/-- Upper-case hexadecimal digits of a code point, at least four of them. -/
def codePoint (c : Char) : String :=
  let digits := (Nat.toDigits 16 c.toNat).map Char.toUpper
  String.ofList (List.replicate (4 - digits.length) '0' ++ digits)

def Cause.message : Cause → String
  | .illegalCharacter c => "illegal character U+" ++ codePoint c ++ " " ++ Text.quotedChar c
  | .comment => "comments are not supported"
  | .openRawString => "raw string literal not terminated"
  | .openString => "string literal not terminated"
  | .unexpected expected found =>
    "expected " ++ expected.description ++ ", found " ++ found.description
  | .inlineStruct => "inline struct types are not supported"
  | .nameList => "field name lists are not supported"

structure Error where
  position : Position
  cause : Cause
  deriving DecidableEq, Repr

def Error.message (e : Error) : String :=
  toString e.position.line ++ ":" ++ toString e.position.column ++ ": " ++ e.cause.message

end GoSchema.Source
