import GoSchema.Json.Numeral

/-! # Tokens of JSON text

A text is read as tokens up to its end or up to the first place that no token fits. Two faults
lie in the meaning of a token and not in its extent: a number out of range and a string with an
unpaired surrogate. They stay in the token, and only a reader that asks for the meaning meets
them.
-/

namespace GoSchema.Json

inductive Lexeme where
  | beginArray
  | endArray
  | beginObject
  | endObject
  | colon
  | comma
  | null
  | bool (value : Bool)
  | number (value : Except Error JsonNumber)
  | string (text : Except Error String)

/-- A token, and the position to blame when it is out of place. -/
structure Token where
  lexeme : Lexeme
  ahead : Position

inductive Ending where
  | text (stop : Position)
  /-- No token fits: the fault, the position to blame when no value is wanted here, and whether
  a string has begun. -/
  | fault (error : Error) (ahead : Position) (inString : Bool)

namespace Lexeme

/-- The rest of a word after its first letter. -/
def word (p : Position) : List Char → List Char → Except Error Unit
  | [], _ => .ok ()
  | _ :: _, [] => .error ⟨.endInValue, p⟩
  | e :: es, c :: cs =>
    if c = e then word (p.advance c) es cs else .error ⟨.noIdent, p.ahead (c :: cs)⟩

def hexDigit? (c : Char) : Option Nat :=
  if c.isDigit then some (c.toNat - '0'.toNat)
  else if 'a' ≤ c ∧ c ≤ 'f' then some (c.toNat - 'a'.toNat + 10)
  else if 'A' ≤ c ∧ c ≤ 'F' then some (c.toNat - 'A'.toNat + 10)
  else none

def hexQuad? : List Char → Option Nat
  | a :: b :: c :: d :: _ => do
    let a ← hexDigit? a
    let b ← hexDigit? b
    let c ← hexDigit? c
    let d ← hexDigit? d
    return ((a * 16 + b) * 16 + c) * 16 + d
  | _ => none

def byteCount (cs : List Char) : Nat :=
  cs.foldl (fun n c => n + c.utf8Size) 0

/-- Four hexadecimal digits, or the fault in their place. -/
def hexQuad (p : Position) (cs : List Char) : Except Error Nat :=
  match hexQuad? cs with
  | some n => .ok n
  | none =>
    if byteCount cs < 4 then .error ⟨.endInString, p.advanceAll cs⟩
    else .error ⟨.invalidEscape, p.advanceBytes 4 cs⟩

def isLowSurrogate (n : Nat) : Bool :=
  0xDC00 ≤ n && n ≤ 0xDFFF

def isHighSurrogate (n : Nat) : Bool :=
  0xD800 ≤ n && n ≤ 0xDBFF

/-- A part of a string: the characters it denotes, or the fault in their meaning, and how many
characters of the text it takes. -/
abbrev Piece := Except Error (List Char) × Nat

/-- What follows `\u`. A high surrogate has to be followed by an escaped low one. -/
def unicodeEscape (p : Position) (cs : List Char) : Except Error Piece := do
  let n ← hexQuad p cs
  let p := p.advanceAll (cs.take 4)
  if isLowSurrogate n then return (.error ⟨.loneSurrogate, p⟩, 4)
  if !isHighSurrogate n then return (.ok [Char.ofNat n], 4)
  match cs.drop 4 with
  | [] => throw ⟨.endInString, p⟩
  | '\\' :: rest =>
    let p := p.advance '\\'
    match rest with
    | [] => throw ⟨.endInString, p⟩
    | 'u' :: rest =>
      let p := p.advance 'u'
      let m ← hexQuad p rest
      if isLowSurrogate m then
        return (.ok [Char.ofNat (0x10000 + (n - 0xD800) * 0x400 + (m - 0xDC00))], 10)
      else return (.error ⟨.loneSurrogate, p.advanceAll (rest.take 4)⟩, 10)
    | rest => return (.error ⟨.endOfHexEscape, p.ahead rest⟩, 4)
  | rest => return (.error ⟨.endOfHexEscape, p.ahead rest⟩, 4)

def escape (p : Position) (cs : List Char) : Except Error Piece :=
  match cs with
  | [] => .error ⟨.endInString, p⟩
  | '"' :: _ => .ok (.ok ['"'], 1)
  | '\\' :: _ => .ok (.ok ['\\'], 1)
  | '/' :: _ => .ok (.ok ['/'], 1)
  | 'b' :: _ => .ok (.ok ['\x08'], 1)
  | 'f' :: _ => .ok (.ok ['\x0c'], 1)
  | 'n' :: _ => .ok (.ok ['\n'], 1)
  | 'r' :: _ => .ok (.ok ['\r'], 1)
  | 't' :: _ => .ok (.ok ['\t'], 1)
  | 'u' :: rest => (unicodeEscape (p.advance 'u') rest).map fun (text, n) => (text, n + 1)
  | _ => .error ⟨.invalidEscape, p.ahead cs⟩

/-- Two parts of a string after each other; of two faults the first counts. -/
def Piece.append (first : Piece) (rest : Except Error Piece) : Except Error Piece :=
  match first, rest with
  | (.error e, _), .error _ => .error e
  | (.error e, n), .ok (_, m) => .ok (.error e, n + m)
  | (.ok _, _), .error e => .error e
  | (.ok cs, n), .ok (text, m) => .ok (text.map (cs ++ ·), n + m)

/-- The rest of a string after its opening quote, up to and including the closing one. -/
def quoted (p : Position) (cs : List Char) : Except Error Piece :=
  match cs with
  | [] => .error ⟨.endInString, p⟩
  | '"' :: _ => .ok (.ok [], 1)
  | '\\' :: rest =>
    match escape (p.advance '\\') rest with
    | .error e => .error e
    | .ok (text, n) =>
      Piece.append (text, n + 1) (quoted (p.advanceAll ('\\' :: rest.take n)) (rest.drop n))
  | c :: rest =>
    if c.toNat < 0x20 then .error ⟨.controlCharacter, p.ahead cs⟩
    else Piece.append (.ok [c], 1) (quoted (p.advance c) rest)
termination_by cs.length
decreasing_by all_goals (simp only [List.length_cons, List.length_drop]; omega)

/-- The fault of a text that stops where a digit is needed. -/
def noDigit (p : Position) (cs : List Char) : Error :=
  if cs.isEmpty then ⟨.endInValue, p⟩ else ⟨.invalidNumber, p.ahead cs⟩

/-- The digits of a whole number, which has no leading zero. -/
def wholeDigits (p : Position) (cs : List Char) : Except Error (List Char) :=
  match cs with
  | '0' :: rest =>
    if (rest.head?.map Char.isDigit).getD false then
      .error ⟨.invalidNumber, (p.advance '0').ahead rest⟩
    else .ok ['0']
  | _ => oneOrMoreDigits p cs
where
  oneOrMoreDigits (p : Position) (cs : List Char) : Except Error (List Char) :=
    let digits := cs.takeWhile Char.isDigit
    if digits.isEmpty then .error (noDigit p cs) else .ok digits

def fractionDigits (p : Position) (cs : List Char) : Except Error (Option (List Char)) :=
  match cs with
  | '.' :: rest => some <$> wholeDigits.oneOrMoreDigits (p.advance '.') rest
  | _ => .ok none

/-- The mark of an exponent and its sign, if there is one. -/
def exponentMark : List Char → Option (Bool × List Char)
  | m :: s :: _ =>
    if m = 'e' ∨ m = 'E' then
      if s = '-' then some (true, [m, s]) else if s = '+' then some (false, [m, s])
      else some (false, [m])
    else none
  | [m] => if m = 'e' ∨ m = 'E' then some (false, [m]) else none
  | [] => none

def numeral (p : Position) (cs : List Char) : Except Error (Numeral × Nat) := do
  let negative := cs.head? == some '-'
  let sign := if negative then 1 else 0
  let start := cs.drop sign
  let p := p.advanceAll (cs.take sign)
  let whole ← wholeDigits p start
  let afterWhole := start.drop whole.length
  let p := p.advanceAll whole
  let fraction ← fractionDigits p afterWhole
  let fractionLength := (fraction.map (·.length + 1)).getD 0
  let afterFraction := afterWhole.drop fractionLength
  let p := p.advanceAll (afterWhole.take fractionLength)
  match exponentMark afterFraction with
  | none => return (⟨negative, whole, fraction, none⟩, sign + whole.length + fractionLength)
  | some (down, mark) =>
    let digits ← wholeDigits.oneOrMoreDigits (p.advanceAll mark) (afterFraction.drop mark.length)
    return (⟨negative, whole, fraction, some (down, digits)⟩,
      sign + whole.length + fractionLength + mark.length + digits.length)

def numberValue (p : Position) (cs : List Char) (n : Numeral) (length : Nat) :
    Except Error JsonNumber :=
  match n.value with
  | .ok value => .ok value
  | .error read =>
    let exponentLength := (n.exponent.map (·.2.length)).getD 0
    .error ⟨.numberOutOfRange, p.advanceAll (cs.take (length - exponentLength + read))⟩

/-- The token at the start of `c :: cs`, and how many characters of `cs` it takes. -/
def read (p : Position) (c : Char) (cs : List Char) : Except Error (Lexeme × Nat) :=
  match c with
  | '[' => .ok (.beginArray, 0)
  | ']' => .ok (.endArray, 0)
  | '\x7b' => .ok (.beginObject, 0)
  | '\x7d' => .ok (.endObject, 0)
  | ':' => .ok (.colon, 0)
  | ',' => .ok (.comma, 0)
  | 'n' => (word (p.advance c) ['u', 'l', 'l'] cs).map fun _ => (.null, 3)
  | 't' => (word (p.advance c) ['r', 'u', 'e'] cs).map fun _ => (.bool true, 3)
  | 'f' => (word (p.advance c) ['a', 'l', 's', 'e'] cs).map fun _ => (.bool false, 4)
  | '"' => (quoted (p.advance c) cs).map fun (text, n) => (.string (text.map String.ofList), n)
  | _ =>
    if c = '-' ∨ c.isDigit then
      (numeral p (c :: cs)).map fun (n, length) =>
        (.number (numberValue p (c :: cs) n length), length - 1)
    else .error ⟨.noValue, p.ahead (c :: cs)⟩

end Lexeme

def isSpace (c : Char) : Bool :=
  c == ' ' || c == '\n' || c == '\t' || c == '\r'

/-- The tokens of a text and what ends them. -/
def tokens (p : Position) (cs : List Char) : List Token × Ending :=
  match cs with
  | [] => ([], .text p)
  | c :: rest =>
    if isSpace c then tokens (p.advance c) rest
    else
      match Lexeme.read p c rest with
      | .error e => ([], .fault e (p.ahead cs) (c == '"'))
      | .ok (lexeme, n) =>
        let (more, ending) := tokens (p.advanceAll (c :: rest.take n)) (rest.drop n)
        (⟨lexeme, p.ahead cs⟩ :: more, ending)
termination_by cs.length
decreasing_by all_goals (simp only [List.length_cons, List.length_drop]; omega)

end GoSchema.Json
