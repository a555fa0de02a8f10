import GoSchema.Source.Error
import GoSchema.Text.DecimalDigit
import GoSchema.Text.Letter

/-! # From text to tokens

Between tokens stand spaces, tabs and carriage returns. Every other character belongs to a token,
and a token takes as many characters as it can.
-/

namespace GoSchema.Source

/-- May `c` start an identifier? -/
def isLetter (c : Char) : Bool :=
  c == '_' || Text.isLetter c

def isDigit (c : Char) : Bool :=
  Text.isDecimalDigit c

/-- May `c` stand in an identifier after its first character? -/
def isWordChar (c : Char) : Bool :=
  isLetter c || isDigit c

/-- Does `c` stand between tokens without meaning? -/
def isGap (c : Char) : Bool :=
  c == ' ' || c == '\t' || c == '\r'

/-- The number of characters up to and including the quote that closes a string, which is on the
same line and not after a backslash. -/
def closingQuote (escaped : Bool) : List Char → Option Nat
  | [] => none
  | c :: cs =>
    if c = '\n' then none
    else if escaped then (closingQuote false cs).map (· + 1)
    else if c = '\\' then (closingQuote true cs).map (· + 1)
    else if c = '"' then some 1
    else (closingQuote false cs).map (· + 1)

/-- The number of characters up to and including the backtick that closes a raw string. -/
def closingBacktick : List Char → Option Nat
  | [] => none
  | c :: cs => if c = '\x60' then some 1 else (closingBacktick cs).map (· + 1)

/-- The token that begins with `c`, and how many of the following characters it takes. -/
def lexeme (c : Char) (cs : List Char) : Except Cause (Kind × Nat) :=
  if c = '\n' then .ok (.newline, 0)
  else if c = '/' ∧ (cs.head? = some '/' ∨ cs.head? = some '*') then .error .comment
  else if c = '\x60' then
    match closingBacktick cs with
    | some n => .ok (.str (String.ofList (c :: cs.take n)), n)
    | none => .error .openRawString
  else if c = '"' then
    match closingQuote false cs with
    | some n => .ok (.str (String.ofList (c :: cs.take n)), n)
    | none => .error .openString
  else if isLetter c then
    let more := cs.takeWhile isWordChar
    .ok (.word (String.ofList (c :: more)), more.length)
  else if c.isDigit then
    let more := cs.takeWhile fun d => isWordChar d || d == '.'
    .ok (.number (String.ofList (c :: more)), more.length)
  else
    match Punct.ofChar? c with
    | some p => .ok (.punct p, 0)
    | none => .error (.illegalCharacter c)

def byteCount : List Char → Nat
  | [] => 0
  | c :: cs => c.utf8Size + byteCount cs

/-- The number of bytes before the last newline. -/
def lastNewline? : List Char → Option Nat
  | [] => none
  | c :: cs =>
    match lastNewline? cs with
    | some i => some (c.utf8Size + i)
    | none => if c = '\n' then some 0 else none

/-- How far a text has been read. -/
structure Lexer where
  /-- The number of bytes that have been read. -/
  offset : Nat
  /-- The number of the line, from 1. -/
  line : Nat
  /-- The number of bytes before the line. -/
  lineStart : Nat
  deriving DecidableEq, Repr

namespace Lexer

def start : Lexer :=
  ⟨0, 1, 0⟩

def column (l : Lexer) : Nat :=
  l.offset - l.lineStart + 1

def position (l : Lexer) : Position :=
  ⟨l.line, l.column⟩

/-- Read bytes of the same line. -/
def past (l : Lexer) (bytes : Nat) : Lexer :=
  { l with offset := l.offset + bytes }

def pastNewline (l : Lexer) : Lexer :=
  let offset := l.offset + 1
  ⟨offset, l.line + 1, offset⟩

/-- Read a raw string, which may span lines. -/
def pastRawString (l : Lexer) (literal : List Char) : Lexer :=
  let offset := l.offset + byteCount literal
  match lastNewline? literal with
  | some i => ⟨offset, l.line + literal.count '\n', l.offset + i + 1⟩
  | none => { l with offset }

/-- Read a token that begins with `c`. -/
def pastToken (l : Lexer) (c : Char) (more : List Char) : Lexer :=
  if c = '\n' then l.pastNewline
  else if c = '\x60' then l.pastRawString (c :: more)
  else l.past (byteCount (c :: more))

end Lexer

/-- The tokens that a lexer finds in what it has not read. The last one is the end of the text. -/
def tokensFrom (l : Lexer) (cs : List Char) : Except Error (List Token) :=
  match cs with
  | [] => .ok [⟨.eof, l.position⟩]
  | c :: rest =>
    if isGap c then tokensFrom (l.past 1) rest
    else
      match lexeme c rest with
      | .error cause => .error ⟨l.position, cause⟩
      | .ok (kind, n) =>
        match tokensFrom (l.pastToken c (rest.take n)) (rest.drop n) with
        | .error e => .error e
        | .ok more => .ok (⟨kind, l.position⟩ :: more)
termination_by cs.length
decreasing_by all_goals (simp only [List.length_cons, List.length_drop]; omega)

def tokens (text : String) : Except Error (List Token) :=
  tokensFrom .start text.toList

end GoSchema.Source
