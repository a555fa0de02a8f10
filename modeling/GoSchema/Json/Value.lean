import GoSchema.Number.Binary64

/-! # JSON values

A value keeps the members of an object in the order in which their keys first appear. The text of
an object may repeat a key; `settled` is the value after each repetition has replaced the value
before it.
-/

namespace GoSchema

/-- A JSON number: an integer that fits 64 bits, or a double. -/
inductive JsonNumber where
  | integer (value : Int)
  | double (value : Binary64)
  deriving DecidableEq, Repr, Inhabited

def JsonNumber.toBinary64 : JsonNumber → Binary64
  | .integer n => .ofInt n
  | .double x => x

inductive Json where
  | null
  | bool (value : Bool)
  | number (value : JsonNumber)
  | string (text : String)
  | array (items : List Json)
  | object (members : List (String × Json))
  deriving Repr, Inhabited

namespace Json

mutual
def same : Json → Json → Bool
  | .null, .null => true
  | .bool a, .bool b => a == b
  | .number m, .number n => m == n
  | .string s, .string t => s == t
  | .array xs, .array ys => sameItems xs ys
  | .object ms, .object ns => sameMembers ms ns
  | _, _ => false

def sameItems : List Json → List Json → Bool
  | [], [] => true
  | x :: xs, y :: ys => same x y && sameItems xs ys
  | _, _ => false

def sameMembers : List (String × Json) → List (String × Json) → Bool
  | [], [] => true
  | (k, x) :: ms, (l, y) :: ns => k == l && same x y && sameMembers ms ns
  | _, _ => false
end

mutual
theorem same_iff (x y : Json) : same x y = true ↔ x = y := by
  cases x with
  | array xs => cases y <;> simp [same, sameItems_iff xs]
  | object ms => cases y <;> simp [same, sameMembers_iff ms]
  | _ => cases y <;> simp [same]
termination_by sizeOf x

theorem sameItems_iff (xs ys : List Json) : sameItems xs ys = true ↔ xs = ys := by
  match xs, ys with
  | [], [] | [], _ :: _ | _ :: _, [] => simp [sameItems]
  | x :: xs, y :: ys => simp [sameItems, same_iff x, sameItems_iff xs]
termination_by sizeOf xs

theorem sameMembers_iff (ms ns : List (String × Json)) : sameMembers ms ns = true ↔ ms = ns := by
  match ms, ns with
  | [], [] | [], _ :: _ | _ :: _, [] => simp [sameMembers]
  | (k, x) :: ms, (l, y) :: ns => simp [sameMembers, same_iff x, sameMembers_iff ms, and_assoc]
termination_by sizeOf ms
end

instance : DecidableEq Json := fun x y =>
  decidable_of_iff (same x y = true) (same_iff x y)

/-- Set the value of a key: in place when the key is there, at the end otherwise. -/
def put (key : String) (value : α) : List (String × α) → List (String × α)
  | [] => [(key, value)]
  | (k, v) :: rest => if k = key then (k, value) :: rest else (k, v) :: put key value rest

mutual
/-- The value with every repeated key resolved: the last value stands at the first position. -/
def settled : Json → Json
  | .array items => .array (settledItems items)
  | .object members => .object (settledMembers [] members)
  | value => value

def settledItems : List Json → List Json
  | [] => []
  | item :: rest => item.settled :: settledItems rest

def settledMembers (before : List (String × Json)) : List (String × Json) → List (String × Json)
  | [] => before
  | (key, value) :: rest => settledMembers (put key value.settled before) rest
end

end Json
end GoSchema
