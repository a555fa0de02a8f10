import GoSchema.Query.Fault

/-! # Calculating with values -/

namespace GoSchema.Query

namespace Value

/-- The sum: null is neutral, objects are joined with the members of the second on top. -/
def plus (left right : Value) : Output :=
  match left, right with
  | .null, v => .ok v
  | v, .null => .ok v
  | .number a, .number b => .ok (.number (a.combine (· + ·) (· + ·) b))
  | .string a, .string b => .ok (.string (a ++ b))
  | .array a, .array b => .ok (.array (a ++ b))
  | .object a, .object b => .ok (.object (b.foldl (fun ms (k, v) => Json.put k v ms) a))
  | _, _ => .error (.cannotCalculate left.settled .plus right.settled)

/-- The difference; of arrays, the items of the first that are not in the second. -/
def minus (left right : Value) : Output :=
  match left, right with
  | .number a, .number b => .ok (.number (a.combine (· - ·) (· - ·) b))
  | .array a, .array b => .ok (.array (a.filter fun v => b.all fun w => v.order w != .eq))
  | _, _ => .error (.cannotCalculate left.settled .minus right.settled)

/-- A text as often as a number says; null when that is not at all. -/
def repeated (text : String) (times : Int) : Value :=
  if 0 < times then .string (String.join (List.replicate times.toNat text)) else .null

mutual
/-- Objects joined member by member, those of the second on top. -/
def merged (left : List (String × Value)) : List (String × Value) → List (String × Value)
  | [] => left
  | (key, value) :: rest => merged (Json.put key (value.onTopOf (left.lookup key)) left) rest

/-- A value on top of an earlier one: objects are joined, and all else is replaced. -/
def onTopOf (earlier : Option Value) : Value → Value
  | .object members =>
    match earlier with
    | some (.object left) => .object (merged left members)
    | _ => .object members
  | v => v
end

/-- The product; a string is repeated, and objects are joined at every depth. -/
def times (left right : Value) : Output :=
  match left, right with
  | .number a, .number b => .ok (.number (a.combine (· * ·) (· * ·) b))
  | .object a, .object b => .ok (.object (merged a b))
  | .string s, .number (.int n) | .number (.int n), .string s => .ok (repeated s n)
  | _, _ => .error (.cannotCalculate left.settled .times right.settled)

def splitText (text separator : String) : List String :=
  if text = "" then []
  else if separator = "" then text.toList.map Char.toString
  else text.splitOn separator

/-- The quotient of numbers is a double; strings are split. -/
def divide (left right : Value) : Output :=
  match left, right with
  | .number a, .number b => .ok (.number (.double (a.toFloat / b.toFloat)))
  | .string a, .string b => .ok (.array ((splitText a b).map .string))
  | _, _ => .error (.cannotCalculate left.settled .divide right.settled)

/-- The remainder of integers, with the sign of the dividend. -/
def modulo (left right : Value) : Output :=
  match left, right with
  | .number (.int a), .number (.int b) =>
    if b = 0 then .error (.cannotCalculate left .modulo right)
    else .ok (.number (.int (a.tmod b)))
  | _, _ => .error (.cannotCalculate left .modulo right)

def negate : Value → Output
  | .number n => .ok (.number n.negate)
  | v => .error (.cannotUse v .number)

end Value

def Operator.run (operator : Operator) (left right : Value) : Output :=
  match operator with
  | .plus => left.plus right
  | .minus => left.minus right
  | .times => left.times right
  | .divide => left.divide right
  | .modulo => left.modulo right
  | .equal => .ok (.bool (left.order right == .eq))
  | .notEqual => .ok (.bool (left.order right != .eq))
  | .less => .ok (.bool (left.order right == .lt))
  | .lessEqual => .ok (.bool (left.order right != .gt))
  | .greater => .ok (.bool (left.order right == .gt))
  | .greaterEqual => .ok (.bool (left.order right != .lt))

/-! Ranges -/

namespace Value

/-- The greatest length of a range; a longer one is cut. -/
def rangeLimit : Nat :=
  262144

/-- Is a value on the way to the end of a range? Steps above zero ascend and those below descend;
a step of zero goes on until the end is met. -/
def isBefore (value upper step : Value) : Bool :=
  match step.order (.number (.int 0)) with
  | .gt => value.order upper == .lt
  | .lt => value.order upper == .gt
  | .eq => value.order upper != .eq

/-- The outputs of a range from a value on, after those that have been found, the last one
first. -/
def rangeFrom (upper step : Value) : Nat → Value → Outputs → Outputs
  | 0, _, found => found.reverse
  | n + 1, value, found =>
    if value.isBefore upper step then
      match value.plus step with
      | .ok next => rangeFrom upper step n next (.ok value :: found)
      | .error e => (.error e :: .ok value :: found).reverse
    else found.reverse

def range (lower upper step : Value) : Outputs :=
  rangeFrom upper step rangeLimit lower []

end Value
end GoSchema.Query
