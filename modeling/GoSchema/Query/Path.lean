import GoSchema.Query.Fault

/-! # Paths into values

A path is a sequence of parts, each of which leads from a value to some of the values in it. Only
arrays and objects can be indexed; null is neither.
-/

namespace GoSchema.Query

inductive Part where
  | index (key : Value)
  /-- What stands between two indices; one that is missing is an end of the target. -/
  | slice (lower upper : Option Value)
  /-- The elements or the member values. -/
  | each

/-- What is done with the faults of one step. -/
inductive Access where
  | strict
  /-- The step leads nowhere where it fails. -/
  | lenient
  deriving DecidableEq, Repr

def Access.guard (access : Access) (outputs : Outputs) : Outputs :=
  match access with
  | .strict => outputs
  | .lenient => outputs.values

abbrev Path := List (Part × Access)

namespace Value

/-- What stands under a key or an index. Negative indices count from the end. -/
def index (target key : Value) : Output :=
  match target, key with
  | .array items, .number (.int i) =>
    let i := if i < 0 then i + items.length else i
    .ok (if i < 0 then .null else (items[i.toNat]?).getD .null)
  | .object members, .string k => .ok ((members.lookup k).getD .null)
  | .array _, _ | .object _, _ => .error (.cannotIndex target key)
  | _, _ => .error (.cannotUse target .iterable)

/-- A bound of a slice of `length` items; `whole` stands for a missing one. -/
def bound (length whole : Nat) : Option Value → Except Fault Nat
  | none => .ok whole
  | some (.number (.int i)) =>
    .ok (min length (if i < 0 then (i + length).toNat else i.toNat))
  | some v => .error (.cannotUse v .integer)

def between (items : List α) (lower upper : Option Value) : Except Fault (List α) := do
  let start ← bound items.length 0 lower
  let stop ← bound items.length items.length upper
  return (items.take stop).drop start

def slice (target : Value) (lower upper : Option Value) : Output :=
  match target with
  | .array items => (between items lower upper).map .array
  | .string s => (between s.toList lower upper).map fun cs => .string (String.ofList cs)
  | _ => .error (.cannotUse target .sliceable)

def children : Value → Except Fault (List Value)
  | .array items => .ok items
  | .object members => .ok (members.map (·.2))
  | v => .error (.cannotUse v .iterable)

def has (target key : Value) : Output :=
  match target, key with
  | .array items, .number (.int i) =>
    if i < 0 then .error (.cannotIndex target key) else .ok (.bool (i < items.length))
  | .object members, .string k => .ok (.bool (members.any (·.1 == k)))
  | _, _ => .error (.cannotIndex target key)

end Value

def Part.run (target : Value) : Part → Outputs
  | .index key => [target.index key]
  | .slice lower upper => [target.slice lower upper]
  | .each =>
    match target.children with
    | .ok vs => vs.map .ok
    | .error e => [.error e]

def Path.follow : Path → Value → Outputs
  | [], v => [.ok v]
  | (part, access) :: rest, v => (access.guard (part.run v)).andThen (follow rest)

end GoSchema.Query
