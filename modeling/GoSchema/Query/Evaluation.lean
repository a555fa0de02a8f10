import GoSchema.Query.Arithmetic
import GoSchema.Query.Filter

/-! # Running filters

The outputs of a filter on an input. Operands and keys with several outputs are combined in every
way, the outputs of the left one on the outside.
-/

namespace GoSchema.Query

namespace Builtin

def keysOf : Value → Except Fault (List Value)
  | .object members => .ok (members.map fun (k, _) => .string k)
  | .array items => .ok ((List.range items.length).map fun i : Nat => .number (.int i))
  | v => .error (.cannotUse v .iterable)

def sorted (vs : List Value) : List Value :=
  vs.mergeSort fun a b => a.order b != .gt

def lengthOf : Value → Output
  | .null => .ok (.number (.int 0))
  | .number n => .ok (.number n.magnitude)
  | .string s => .ok (.number (.int s.length))
  | .array items => .ok (.number (.int items.length))
  | .object members => .ok (.number (.int members.length))
  | v@(.bool _) => .error (.noLength v)

/-- The objects with a key and what stands under it. -/
def entriesOf (v : Value) : Except Fault (List Value) := do
  (← keysOf v).mapM fun key => return .object [("key", key), ("value", ← v.index key)]

def run (function : Builtin) (input : Value) : Output :=
  match function with
  | .keys => (keysOf input).map fun keys => .array (sorted keys)
  | .length => lengthOf input
  | .type => .ok (.string input.kind)
  | .not => .ok (.bool !input.isTrue)
  | .add => input.children.bind fun vs => vs.foldlM Value.plus .null
  | .toEntries => (entriesOf input).map .array
  | .toText => .ok (match input with
      | .string s => .string s
      | v => .string v.text)
  | .raise => .error (.raised input)

end Builtin

/-- The object with one member, whose key has to be a string. -/
def Value.entry (key value : Value) : Output :=
  match key with
  | .string k => .ok (.object [(k, value)])
  | _ => .error (.cannotUse key .string)

/-- Combine the steps that may come next with the paths that may follow them. Of several faults
on the way the first counts. -/
def Path.extensions (access : Access) (steps : List (Except Fault Part))
    (rests : List (Except Fault Path)) : List (Except Fault Path) :=
  steps.flatMap fun step => rests.map fun rest => return (← step, access) :: (← rest)

mutual
def Filter.run (vars : List (String × Value)) (input : Value) : Filter → Outputs
  | .identity => [.ok input]
  | .nothing => []
  | .constant v => [.ok v]
  | .variable name => [.ok ((vars.lookup name).getD .null)]
  | .descend => input.descendants.map .ok
  | .apply function => [function.run input]
  | .collect items => [(items.run vars input).collected]
  | .entry key value => (key.run vars input).combine (value.run vars input) Value.entry
  | .negate operand => (operand.run vars input).andThen fun v => [v.negate]
  | .path head parts =>
    (head.run vars input).andThen fun v =>
      (parts.paths vars input).flatMap fun
        | .ok path => path.follow v
        | .error e => [.error e]
  | .attempt body handler =>
    (body.run vars input).flatMap fun
      | .ok v => [.ok v]
      | .error e => handler.run vars e.value
  | .pipe f g => (f.run vars input).andThen fun v => g.run vars v
  | .bind source name body =>
    (source.run vars input).andThen fun v => body.run ((name, v) :: vars) input
  | .comma f g => f.run vars input ++ g.run vars input
  | .fallback f g =>
    match (f.run vars input).trueOnes with
    | [] => g.run vars input
    | outputs => outputs
  | .both left right =>
    (left.run vars input).andThen fun l =>
      if l.isTrue then (right.run vars input).andThen fun r => [.ok (.bool r.isTrue)]
      else [.ok (.bool false)]
  | .either left right =>
    (left.run vars input).andThen fun l =>
      if l.isTrue then [.ok (.bool true)]
      else (right.run vars input).andThen fun r => [.ok (.bool r.isTrue)]
  | .operate operator left right =>
    (left.run vars input).combine (right.run vars input) operator.run
  | .branch condition yes no =>
    (condition.run vars input).andThen fun c =>
      if c.isTrue then yes.run vars input else no.run vars input
  | .reduce source name init update =>
    (source.run vars input).foldl
      (fun states item => states.andThen fun s =>
        match item with
        | .ok v => update.run ((name, v) :: vars) s
        | .error e => [.error e])
      (init.run vars input)
  | .first items => (items.run vars input).take 1
  | .has key => (key.run vars input).andThen fun k => [input.has k]
  | .range lower upper step =>
    (lower.run vars input).andThen fun l =>
      (upper.run vars input).andThen fun u =>
        (step.run vars input).andThen fun s => Value.range l u s

def PathFilter.paths (vars : List (String × Value)) (input : Value) :
    PathFilter → List (Except Fault Path)
  | .done => [.ok []]
  | .index key access rest =>
    Path.extensions access ((key.run vars input).map (·.map .index)) (rest.paths vars input)
  | .slice lower upper access rest =>
    let lowers := boundsOf vars input lower
    let uppers := boundsOf vars input upper
    let slices := lowers.flatMap fun l => uppers.map fun u => return Part.slice (← l) (← u)
    Path.extensions access slices (rest.paths vars input)
  | .each access rest => Path.extensions access [.ok .each] (rest.paths vars input)

/-- The bounds that a filter gives for an input; a missing filter gives a missing bound. -/
def boundsOf (vars : List (String × Value)) (input : Value) :
    Option Filter → List (Except Fault (Option Value))
  | none => [.ok none]
  | some bound => (bound.run vars input).map (·.map some)
end

end GoSchema.Query
