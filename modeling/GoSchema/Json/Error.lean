import GoSchema.Json.Position

/-! # Errors in JSON text -/

namespace GoSchema.Json

inductive Fault where
  | endInValue
  | endInList
  | endInObject
  | endInString
  | noValue
  | noIdent
  | noColon
  | noListSeparator
  | noObjectSeparator
  | keyNotString
  | trailingComma
  | trailingCharacters
  | invalidEscape
  | invalidNumber
  | numberOutOfRange
  | controlCharacter
  | loneSurrogate
  | endOfHexEscape
  | nestedTooDeep
  deriving DecidableEq, Repr

def Fault.message : Fault → String
  | .endInValue => "EOF while parsing a value"
  | .endInList => "EOF while parsing a list"
  | .endInObject => "EOF while parsing an object"
  | .endInString => "EOF while parsing a string"
  | .noValue => "expected value"
  | .noIdent => "expected ident"
  | .noColon => "expected `:`"
  | .noListSeparator => "expected `,` or `]`"
  | .noObjectSeparator => "expected `,` or `\x7d`"
  | .keyNotString => "key must be a string"
  | .trailingComma => "trailing comma"
  | .trailingCharacters => "trailing characters"
  | .invalidEscape => "invalid escape"
  | .invalidNumber => "invalid number"
  | .numberOutOfRange => "number out of range"
  | .controlCharacter => "control character (\\u0000-\\u001F) found while parsing a string"
  | .loneSurrogate => "lone leading surrogate in hex escape"
  | .endOfHexEscape => "unexpected end of hex escape"
  | .nestedTooDeep => "recursion limit exceeded"

/-- A fault and how much had been read when it was found. -/
structure Error where
  fault : Fault
  position : Position
  deriving DecidableEq, Repr

def Error.message (e : Error) : String :=
  s!"{e.fault.message} at line {e.position.line} column {e.position.column}"

end GoSchema.Json
