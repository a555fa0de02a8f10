import GoSchema.Query.Path

/-! # Filters

A filter turns one value into a sequence of values. Names of functions and variables have been
resolved, so every filter can be run.
-/

namespace GoSchema.Query

/-- A function of the input without arguments. -/
inductive Builtin where
  | keys
  | length
  | type
  | not
  | add
  | toEntries
  | toText
  | raise
  deriving DecidableEq, Repr

mutual
inductive Filter where
  | identity
  | nothing
  | constant (value : Value)
  | variable (name : String)
  /-- The input and all its parts. -/
  | descend
  | apply (function : Builtin)
  | collect (items : Filter)
  | entry (key value : Filter)
  | negate (operand : Filter)
  /-- Where paths lead from the outputs of a filter. -/
  | path (head : Filter) (parts : PathFilter)
  /-- The outputs of the body; each fault is replaced by the outputs of the handler. -/
  | attempt (body handler : Filter)
  | pipe (first second : Filter)
  /-- Every output of the source becomes the value of a variable. -/
  | bind (source : Filter) (name : String) (body : Filter)
  | comma (first second : Filter)
  /-- The true outputs of the first filter, or the outputs of the second when there are none. -/
  | fallback (first second : Filter)
  | both (left right : Filter)
  | either (left right : Filter)
  | operate (operator : Operator) (left right : Filter)
  | branch (condition yes no : Filter)
  | reduce (source : Filter) (name : String) (init update : Filter)
  | first (items : Filter)
  | has (key : Filter)
  | range (lower upper step : Filter)

/-- A filter for paths. Keys and bounds are computed from the input of the whole, not from the
value that the path has led to. -/
inductive PathFilter where
  | done
  | index (key : Filter) (access : Access) (rest : PathFilter)
  | slice (lower upper : Option Filter) (access : Access) (rest : PathFilter)
  | each (access : Access) (rest : PathFilter)
end

instance : Inhabited Filter :=
  ⟨.identity⟩

end GoSchema.Query
