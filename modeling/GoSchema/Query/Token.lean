import GoSchema.Json.Token
import GoSchema.Text.Blank
import GoSchema.Text.Numeric

/-! # Tokens of queries

Blanks and comments stand between tokens. A comment runs from `#` to the end of the line; it goes
on in the next line if its line ends with an odd number of backslashes.
-/

namespace GoSchema.Query

inductive Token where
  | word (text : String)
  /-- A dot with a name right after it. -/
  | field (name : String)
  /-- A dollar sign with a name right after it. -/
  | variable (name : String)
  | number (text : String)
  | string (text : String)
  | mark (text : String)
  deriving DecidableEq, Repr

namespace Token

def isNameStart (c : Char) : Bool :=
  c.isAlpha || c == '_'

def isNameChar (c : Char) : Bool :=
  c.isAlphanum || c == '_'

/-- The character that an escape stands for after its backslash, and how many characters the escape
takes. A code point is written with four digits and cannot be a surrogate. -/
def escape? : List Char → Option (Char × Nat)
  | 'u' :: rest =>
    (Json.Lexeme.hexQuad? rest).bind fun n =>
      if Json.Lexeme.isLowSurrogate n || Json.Lexeme.isHighSurrogate n then none
      else some (Char.ofNat n, 5)
  | cs =>
    match Json.Lexeme.escape .start cs with
    | .ok (.ok [c], n) => some (c, n)
    | _ => none

/-- The rest of a string after its opening quote, and how many characters it takes with the
closing one. -/
def string? (cs : List Char) : Option (List Char × Nat) :=
  match cs with
  | [] => none
  | '"' :: _ => some ([], 1)
  | '\\' :: rest => do
    let (c, n) ← escape? rest
    let (more, m) ← string? (rest.drop n)
    return (c :: more, 1 + n + m)
  | c :: rest => do
    let (more, m) ← string? rest
    return (c :: more, 1 + m)
termination_by cs.length
decreasing_by all_goals (simp only [List.length_cons, List.length_drop]; omega)

def digits? (cs : List Char) : Option (List Char) :=
  let digits := cs.takeWhile Text.isNumeric
  if digits.isEmpty then none else some digits

def fraction? : List Char → Option (List Char)
  | '.' :: rest => (digits? rest).map ('.' :: ·)
  | _ => some []

def exponent? (cs : List Char) : Option (List Char) :=
  match Json.Lexeme.exponentMark cs with
  | some (_, letter) => (digits? (cs.drop letter.length)).map (letter ++ ·)
  | none => some []

/-- The characters after the first digit of a numeral. A point and the letter of an exponent have
to be followed by digits. -/
def numeralTail? (cs : List Char) : Option (List Char) := do
  let whole := cs.takeWhile Text.isNumeric
  let rest := cs.drop whole.length
  let fraction ← fraction? rest
  let exponent ← exponent? (rest.drop fraction.length)
  return whole ++ fraction ++ exponent

/-- Does a line of a comment end with an odd number of backslashes? A carriage return before the
end of the line does not count. -/
def continues (line : List Char) : Bool :=
  let content := match line.reverse with
    | '\r' :: rest => rest
    | cs => cs
  (content.takeWhile (· == '\\')).length % 2 == 1

/-- The number of characters of a comment after its mark. -/
def commentLength (cs : List Char) : Nat :=
  let line := cs.takeWhile (· != '\n')
  if line.length < cs.length ∧ continues line then
    line.length + 1 + commentLength (cs.drop (line.length + 1))
  else line.length
termination_by cs.length
decreasing_by simp only [List.length_drop]; omega

def doubleMarks : List String :=
  ["..", "//", "==", "!=", "<=", ">="]

def singleMarks : List String :=
  [".", "[", "]", "(", ")", "\x7b", "\x7d", "|", ",", ":", ";", "?", "+", "-", "*", "/", "%",
    "<", ">"]

def mark? (c : Char) (cs : List Char) : Option (Token × Nat) :=
  let double := String.ofList (c :: cs.take 1)
  if double ∈ doubleMarks then some (.mark double, 1)
  else if c.toString ∈ singleMarks then some (.mark c.toString, 0)
  else none

/-- The token at the start of `c :: cs`, and how many characters of `cs` it takes. -/
def read? (c : Char) (cs : List Char) : Option (Token × Nat) :=
  let name := cs.takeWhile isNameChar
  if isNameStart c then some (.word (String.ofList (c :: name)), name.length)
  else if c.isDigit then
    (numeralTail? cs).map fun more => (.number (String.ofList (c :: more)), more.length)
  else if c = '"' then
    (string? cs).map fun (text, n) => (.string (String.ofList text), n)
  else if c = '.' ∧ (cs.head?.map isNameStart).getD false then
    some (.field (String.ofList name), name.length)
  else if c = '$' then
    if (cs.head?.map isNameStart).getD false then
      some (.variable (String.ofList name), name.length)
    else none
  else mark? c cs

/-- The tokens of a query, if it has nothing else between blanks and comments. -/
def all? (cs : List Char) : Option (List Token) :=
  match cs with
  | [] => some []
  | c :: rest =>
    if Text.isBlankChar c then all? rest
    else if c = '#' then all? (rest.drop (commentLength rest))
    else
      match read? c rest with
      | none => none
      | some (t, n) => (all? (rest.drop n)).map (t :: ·)
termination_by cs.length
decreasing_by all_goals (simp only [List.length_cons, List.length_drop]; omega)

end Token
end GoSchema.Query
