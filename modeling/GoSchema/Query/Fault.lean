import GoSchema.Query.Value

/-! # Faults and outputs

A query gives a sequence of outputs, and an output is a value or a fault. A fault is an output
like any other until a handler takes it or the sequence is used up to it.
-/

namespace GoSchema.Query

inductive Operator where
  | plus
  | minus
  | times
  | divide
  | modulo
  | equal
  | notEqual
  | less
  | lessEqual
  | greater
  | greaterEqual
  deriving DecidableEq, Repr

def Operator.symbol : Operator → String
  | .plus => "+"
  | .minus => "-"
  | .times => "*"
  | .divide => "/"
  | .modulo => "%"
  | .equal => "=="
  | .notEqual => "!="
  | .less => "<"
  | .lessEqual => "<="
  | .greater => ">"
  | .greaterEqual => ">="

inductive Role where
  | integer
  | number
  | string
  | iterable
  | sliceable
  deriving DecidableEq, Repr

def Role.description : Role → String
  | .integer => "integer"
  | .number => "number"
  | .string => "string"
  | .iterable => "iterable (array or object)"
  | .sliceable => "rangeable (array or string)"

inductive Fault where
  | cannotIndex (target key : Value)
  | cannotUse (value : Value) (role : Role)
  | cannotCalculate (left : Value) (operator : Operator) (right : Value)
  | noLength (value : Value)
  /-- The query itself raised a value. -/
  | raised (value : Value)

/-- What a handler gets to see of a fault. -/
def Fault.value : Fault → Value
  | .cannotIndex target key => .string ("cannot index " ++ target.text ++ " with " ++ key.text)
  | .cannotUse v role => .string ("cannot use " ++ v.text ++ " as " ++ role.description)
  | .cannotCalculate left operator right =>
    .string ("cannot calculate " ++ left.text ++ " " ++ operator.symbol ++ " " ++ right.text)
  | .noLength v => .string (v.text ++ " has no length")
  | .raised v => v

abbrev Output := Except Fault Value

abbrev Outputs := List Output

namespace Outputs

/-- Run a continuation on every value; faults stay where they are. -/
def andThen (outputs : Outputs) (f : Value → Outputs) : Outputs :=
  outputs.flatMap fun
    | .ok v => f v
    | .error e => [.error e]

/-- Combine every output of `left` with every output of `right`. Where both are faults, the left
one counts. -/
def combine (left right : Outputs) (f : Value → Value → Output) : Outputs :=
  left.flatMap fun l => right.map fun r => do f (← l) (← r)

def trueOnes (outputs : Outputs) : Outputs :=
  outputs.filter fun
    | .ok v => v.isTrue
    | .error _ => true

def values (outputs : Outputs) : Outputs :=
  outputs.filter fun
    | .ok _ => true
    | .error _ => false

/-- The array of all outputs, unless one of them is a fault. -/
def collected (outputs : Outputs) : Output :=
  (outputs.mapM id).map .array

end Outputs
end GoSchema.Query
