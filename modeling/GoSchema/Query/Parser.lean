import GoSchema.Query.Filter
import GoSchema.Query.Token

/-! # Reading queries

A query is read by precedence. From weakest to strongest binding the operators are `|`, `,`, `//`,
`or`, `and`, the equalities, the comparisons by size, `+` and `-`, `*` and `/`, and `%`. A name
that is not defined makes the whole query unreadable.
-/

namespace GoSchema.Query

namespace Filter

def under (key : Value) : Filter :=
  .path .identity (.index (.constant key) .strict .done)

def call? : String → List Filter → Option Filter
  | "null", [] => some (.constant .null)
  | "true", [] => some (.constant (.bool true))
  | "false", [] => some (.constant (.bool false))
  | "nan", [] => some (.constant (.number (.double (0 / 0))))
  | "infinite", [] => some (.constant (.number (.double (1 / 0))))
  | "empty", [] => some .nothing
  | "keys", [] => some (.apply .keys)
  | "length", [] => some (.apply .length)
  | "type", [] => some (.apply .type)
  | "not", [] => some (.apply .not)
  | "add", [] => some (.apply .add)
  | "to_entries", [] => some (.apply .toEntries)
  | "tostring", [] => some (.apply .toText)
  | "error", [] => some (.apply .raise)
  | "error", [value] => some (.pipe value (.apply .raise))
  | "first", [] => some (under (.number (.int 0)))
  | "first", [items] => some (.first items)
  | "numbers", [] =>
    let isNumber := .operate .equal (.apply .type) (.constant (.string "number"))
    some (.branch isNumber .identity .nothing)
  | "map", [f] => some (.collect (.pipe (.path .identity (.each .strict .done)) f))
  | "select", [f] => some (.branch f .identity .nothing)
  | "has", [key] => some (.has key)
  | "range", [upper] => some (.range (.constant (.number (.int 0))) upper one)
  | "range", [lower, upper] => some (.range lower upper one)
  | "range", [lower, upper, step] => some (.range lower upper step)
  | _, _ => none
where
  one : Filter := .constant (.number (.int 1))

def object : List (Filter × Filter) → Filter
  | [] => .constant (.object [])
  | (key, value) :: rest =>
    rest.foldl (fun o (k, v) => .operate .plus o (.entry k v)) (.entry key value)

end Filter

namespace Parser

/-- The words that name no function. -/
def keywords : List String :=
  ["if", "then", "elif", "else", "end", "try", "catch", "reduce", "foreach", "as", "def", "and",
    "or", "label", "import", "include", "__loc__"]

structure Binding where
  precedence : Nat
  rightAssociative : Bool
  build : Filter → Filter → Filter

def binding? : Token → Option Binding
  | .mark "|" => some ⟨0, true, .pipe⟩
  | .mark "," => some ⟨1, false, .comma⟩
  | .mark "//" => some ⟨3, true, .fallback⟩
  | .word "or" => some ⟨4, false, .either⟩
  | .word "and" => some ⟨5, false, .both⟩
  | .mark "==" => some ⟨6, false, .operate .equal⟩
  | .mark "!=" => some ⟨6, false, .operate .notEqual⟩
  | .mark "<" => some ⟨7, false, .operate .less⟩
  | .mark "<=" => some ⟨7, false, .operate .lessEqual⟩
  | .mark ">" => some ⟨7, false, .operate .greater⟩
  | .mark ">=" => some ⟨7, false, .operate .greaterEqual⟩
  | .mark "+" => some ⟨8, false, .operate .plus⟩
  | .mark "-" => some ⟨8, false, .operate .minus⟩
  | .mark "*" => some ⟨9, false, .operate .times⟩
  | .mark "/" => some ⟨9, false, .operate .divide⟩
  | .mark "%" => some ⟨10, false, .operate .modulo⟩
  | _ => none

/-- The number that a numeral of a query denotes: an integer of 64 bits if all its characters are
digits and it fits, and the text itself otherwise. -/
def numberOf (text : String) : Number :=
  match text.toNat? with
  | some n => if text.toList.all Char.isDigit ∧ Number.fitsInt n then .int n else .numeral text
  | none => .numeral text

/-- What is in scope while a part of a query is read. -/
structure Context where
  names : List String
  /-- May a comma join outputs here? -/
  commas : Bool

def Context.bind (ctx : Context) (name : String) : Context :=
  { ctx with names := name :: ctx.names }

/-- Inside brackets of any kind a comma joins outputs. -/
def Context.inner (ctx : Context) : Context :=
  { ctx with commas := true }

/-- The tokens after any question marks. -/
def afterQuestionMarks (ts : List Token) : List Token :=
  ts.dropWhile (· = .mark "?")

/-- Question marks make an access lenient. -/
def access (ts : List Token) : Access × List Token :=
  (if ts.head? = some (.mark "?") then .lenient else .strict, afterQuestionMarks ts)

/-- The tokens after one that has to come. -/
def expect (t : Token) : List Token → Option (List Token)
  | u :: rest => if u = t then some rest else none
  | [] => none

/-! Each reader gives the part it has read and the tokens after it. -/

mutual
/-- Operators of at least a given precedence and their operands. -/
def expression (ctx : Context) (least : Nat) : Nat → List Token → Option (Filter × List Token)
  | 0, _ => none
  | fuel + 1, ts => do
    let (left, ts) ← term ctx fuel ts
    operators ctx least left fuel ts

def operators (ctx : Context) (least : Nat) (left : Filter) :
    Nat → List Token → Option (Filter × List Token)
  | 0, _ => none
  | fuel + 1, ts =>
    match ts with
    | .word "as" :: rest =>
      match rest, least with
      | .variable name :: .mark "|" :: rest, 0 => do
        let (body, ts) ← expression (ctx.bind name) 0 fuel rest
        return (.bind left name body, ts)
      | _, 0 => none
      | _, _ => some (left, ts)
    | t :: rest =>
      match binding? t with
      | none => some (left, ts)
      | some op =>
        if op.precedence < least ∨ (t = .mark "," ∧ !ctx.commas) then some (left, ts)
        else do
          let next := if op.rightAssociative then op.precedence else op.precedence + 1
          let (right, ts) ← expression ctx next fuel rest
          operators ctx least (op.build left right) fuel ts
    | [] => some (left, [])

/-- An operand: an atom and the path that follows it. -/
def term (ctx : Context) : Nat → List Token → Option (Filter × List Token)
  | 0, _ => none
  | fuel + 1, ts => do
    let (head, ts) ← atom ctx fuel ts
    let head := if ts.head? = some (.mark "?") then .attempt head .nothing else head
    let (parts, ts) ← path ctx fuel (afterQuestionMarks ts)
    return (match parts with
      | .done => head
      | _ => .path head parts, ts)

/-- A path: names after dots, strings after dots, and brackets. -/
def path (ctx : Context) : Nat → List Token → Option (PathFilter × List Token)
  | 0, _ => none
  | fuel + 1, ts =>
    match ts with
    | .field name :: rest | .mark "." :: .string name :: rest => do
      let (access, rest) := access rest
      let (parts, rest) ← path ctx fuel rest
      return (.index (.constant (.string name)) access parts, rest)
    | .mark "[" :: rest => do
      let (part, rest) ← bracket ctx fuel rest
      let (access, rest) := access rest
      let (parts, rest) ← path ctx fuel rest
      return (part access parts, rest)
    | _ => some (.done, ts)

def bracket (ctx : Context) :
    Nat → List Token → Option ((Access → PathFilter → PathFilter) × List Token)
  | 0, _ => none
  | fuel + 1, ts =>
    match ts with
    | .mark "]" :: rest => some (.each, rest)
    | .mark ":" :: rest => do
      let (upper, rest) ← expression ctx.inner 0 fuel rest
      let rest ← expect (.mark "]") rest
      return (.slice none (some upper), rest)
    | _ => do
      let (key, rest) ← expression ctx.inner 0 fuel ts
      match rest with
      | .mark "]" :: rest => return (.index key, rest)
      | .mark ":" :: .mark "]" :: rest => return (.slice (some key) none, rest)
      | .mark ":" :: rest =>
        let (upper, rest) ← expression ctx.inner 0 fuel rest
        let rest ← expect (.mark "]") rest
        return (.slice (some key) (some upper), rest)
      | _ => none

/-- A filter without operators and without a path. A path of its own starts at the input. -/
def atom (ctx : Context) : Nat → List Token → Option (Filter × List Token)
  | 0, _ => none
  | fuel + 1, ts =>
    match ts with
    | .number text :: rest => some (.constant (.number (numberOf text)), rest)
    | .string text :: rest => some (.constant (.string text), rest)
    | .variable name :: rest => if name ∈ ctx.names then some (.variable name, rest) else none
    | .field _ :: _ | .mark "." :: .string _ :: _ => some (.identity, ts)
    | .mark "." :: rest => some (.identity, rest)
    | .mark ".." :: rest => some (.descend, rest)
    | .mark "-" :: rest => do
      let (operand, rest) ← term ctx fuel rest
      return (.negate operand, rest)
    | .mark "(" :: rest => do
      let (f, rest) ← expression ctx.inner 0 fuel rest
      let rest ← expect (.mark ")") rest
      return (f, rest)
    | .mark "[" :: .mark "]" :: rest => some (.constant (.array []), rest)
    | .mark "[" :: rest => do
      let (f, rest) ← expression ctx.inner 0 fuel rest
      let rest ← expect (.mark "]") rest
      return (.collect f, rest)
    | .mark "\x7b" :: .mark "\x7d" :: rest => some (Filter.object [], rest)
    | .mark "\x7b" :: rest => do
      let (members, rest) ← entries ctx fuel rest
      return (Filter.object members, rest)
    | .word "if" :: rest => branches ctx fuel rest
    | .word "try" :: rest => do
      let (body, rest) ← term ctx fuel rest
      match rest with
      | .word "catch" :: rest =>
        let (handler, rest) ← term ctx fuel rest
        return (.attempt body handler, rest)
      | _ => return (.attempt body .nothing, rest)
    | .word "reduce" :: rest => do
      let (source, rest) ← term ctx fuel rest
      match rest with
      | .word "as" :: .variable name :: .mark "(" :: rest =>
        let (init, rest) ← expression ctx.inner 0 fuel rest
        let rest ← expect (.mark ";") rest
        let (update, rest) ← expression (ctx.inner.bind name) 0 fuel rest
        let rest ← expect (.mark ")") rest
        return (.reduce source name init update, rest)
      | _ => none
    | .word name :: rest =>
      if name ∈ keywords then none
      else
        match rest with
        | .mark "(" :: rest => do
          let (arguments, rest) ← arguments ctx fuel rest
          let f ← Filter.call? name arguments
          return (f, rest)
        | _ => do
          let f ← Filter.call? name []
          return (f, rest)
    | _ => none

def arguments (ctx : Context) : Nat → List Token → Option (List Filter × List Token)
  | 0, _ => none
  | fuel + 1, ts => do
    let (argument, rest) ← expression ctx.inner 0 fuel ts
    match rest with
    | .mark ")" :: rest => return ([argument], rest)
    | .mark ";" :: rest =>
      let (more, rest) ← arguments ctx fuel rest
      return (argument :: more, rest)
    | _ => none

/-- A condition and its branches, after `if` or `elif`. Without an `else` the input stays. -/
def branches (ctx : Context) : Nat → List Token → Option (Filter × List Token)
  | 0, _ => none
  | fuel + 1, ts => do
    let (condition, rest) ← expression ctx.inner 0 fuel ts
    let rest ← expect (.word "then") rest
    let (yes, rest) ← expression ctx.inner 0 fuel rest
    match rest with
    | .word "end" :: rest => return (.branch condition yes .identity, rest)
    | .word "elif" :: rest =>
      let (no, rest) ← branches ctx fuel rest
      return (.branch condition yes no, rest)
    | .word "else" :: rest =>
      let (no, rest) ← expression ctx.inner 0 fuel rest
      let rest ← expect (.word "end") rest
      return (.branch condition yes no, rest)
    | _ => none

/-- The members of an object after the opening brace. A comma may stand after the last one. -/
def entries (ctx : Context) : Nat → List Token → Option (List (Filter × Filter) × List Token)
  | 0, _ => none
  | fuel + 1, ts => do
    let (member, rest) ← entry ctx fuel ts
    match rest with
    | .mark "\x7d" :: rest | .mark "," :: .mark "\x7d" :: rest => return ([member], rest)
    | .mark "," :: rest =>
      let (more, rest) ← entries ctx fuel rest
      return (member :: more, rest)
    | _ => none

/-- A member of an object. A key alone stands for the member of the input under that key, and a
variable alone for the variable under its name. -/
def entry (ctx : Context) : Nat → List Token → Option ((Filter × Filter) × List Token)
  | 0, _ => none
  | fuel + 1, ts =>
    match ts with
    | .variable name :: rest =>
      if name ∉ ctx.names then none
      else
        match rest with
        | .mark ":" :: rest => do
          let (value, rest) ← expression { ctx with commas := false } 0 fuel rest
          return ((.variable name, value), rest)
        | _ => some ((.constant (.string name), .variable name), rest)
    | .mark "(" :: rest => do
      let (key, rest) ← expression ctx.inner 0 fuel rest
      let rest ← expect (.mark ")") rest
      let rest ← expect (.mark ":") rest
      let (value, rest) ← expression { ctx with commas := false } 0 fuel rest
      return ((key, value), rest)
    | .word key :: rest | .string key :: rest =>
      match rest with
      | .mark ":" :: rest => do
        let (value, rest) ← expression { ctx with commas := false } 0 fuel rest
        return ((.constant (.string key), value), rest)
      | _ => some ((.constant (.string key), Filter.under (.string key)), rest)
    | _ => none
end

/-- Read a query. Nested calls without a token between them are at most four. -/
def parse? (text : String) : Option Filter := do
  let ts ← Token.all? text.toList
  let (f, rest) ← expression ⟨[], true⟩ 0 (4 * ts.length + 4) ts
  if rest.isEmpty then some f else none

end Parser
end GoSchema.Query
