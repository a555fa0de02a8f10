/-! # Tokens of Go declarations

The tokens that type declarations are written with, and where they stand in a text.
-/

namespace GoSchema.Source

/-- A place in a text: lines count from 1, columns are byte offsets in the line, from 1. -/
structure Position where
  line : Nat
  column : Nat
  deriving DecidableEq, Repr, Inhabited

namespace Position

def start : Position :=
  ⟨1, 1⟩

end Position

inductive Punct where
  | leftBrace
  | rightBrace
  | leftBracket
  | rightBracket
  | leftParen
  | rightParen
  | star
  | dot
  | semicolon
  | comma
  deriving DecidableEq, Repr

namespace Punct

def all : List Punct :=
  [.leftBrace, .rightBrace, .leftBracket, .rightBracket, .leftParen, .rightParen, .star, .dot,
    .semicolon, .comma]

def char : Punct → Char
  | .leftBrace => '\x7b'
  | .rightBrace => '\x7d'
  | .leftBracket => '['
  | .rightBracket => ']'
  | .leftParen => '('
  | .rightParen => ')'
  | .star => '*'
  | .dot => '.'
  | .semicolon => ';'
  | .comma => ','

def ofChar? (c : Char) : Option Punct :=
  all.find? (·.char == c)

end Punct

inductive Kind where
  /-- An identifier or a keyword. -/
  | word (text : String)
  /-- A run that starts with a digit. No declaration holds one. -/
  | number (text : String)
  /-- A string literal with its quotes. -/
  | str (literal : String)
  | punct (mark : Punct)
  | newline
  | eof
  deriving DecidableEq, Repr, Inhabited

structure Token where
  kind : Kind
  position : Position
  deriving DecidableEq, Repr, Inhabited

/-- The words that are no names. -/
def keywords : List String :=
  ["break", "case", "chan", "const", "continue", "default", "defer", "else", "fallthrough",
    "for", "func", "go", "goto", "if", "import", "interface", "map", "package", "range",
    "return", "select", "struct", "switch", "type", "var"]

def isKeyword (word : String) : Bool :=
  keywords.contains word

namespace Kind

def text : Kind → String
  | .word s | .number s | .str s => s
  | .punct p => p.char.toString
  | .newline => "\n"
  | .eof => ""

/-- How messages name a token. -/
def description : Kind → String
  | .word s => if isKeyword s then "'" ++ s ++ "'" else s
  | .number s | .str s => s
  | .punct p => "'" ++ p.char.toString ++ "'"
  | .newline => "newline"
  | .eof => "EOF"

end Kind
end GoSchema.Source
