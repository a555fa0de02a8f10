import GoSchema.CommandLine.Arguments
import GoSchema.CommandLine.Libraries
import Mathlib.Data.List.Pairwise

/-! # Invocations

The command lines that ask for a job, described by a grammar: which arguments name an option, which
give it a value, and what all of them ask for together.
-/

namespace GoSchema.CommandLine

/-! ## The grammar -/

/-- An argument names an option, with a value or without one. -/
inductive Names : String → Opt → Option String → Prop where
  | long (opt : Opt) : Names ("--" ++ opt.long) opt none
  | longValue (opt : Opt) (value : String) :
      Names ("--" ++ opt.long ++ "=" ++ value) opt (some value)
  | short {opt letter} (known : opt.short? = some letter) :
      Names (String.ofList ['-', letter]) opt none
  | shortEquals {opt letter} (known : opt.short? = some letter) (value : String) :
      Names (String.ofList ['-', letter, '='] ++ value) opt (some value)
  | shortValue {opt letter c cs} (known : opt.short? = some letter) (direct : c ≠ '=') :
      Names (String.ofList ('-' :: letter :: c :: cs)) opt (some (String.ofList (c :: cs)))

/-- An argument that can be a value on its own. -/
def Plain (argument : String) : Prop :=
  argument = "-" ∨ argument.toList.head? ≠ some '-'

/-- What an option asks for with a value. -/
inductive Asks : Opt → String → Setting → Prop where
  | pointer (p : String) : Asks .pointer p (.pointer p)
  | query (code : String) : Asks .query code (.query code)
  | input (path : String) : Asks .input path (.input path)
  | tagName (name : String) : Asks .tagName name (.tagName name)
  | omitNever : Asks .omitEmpty "none" (.omitEmpty .none)
  | omitAll : Asks .omitEmpty "all-fields" (.omitEmpty .allFields)
  | omitOptional : Asks .omitEmpty "optional-fields-only" (.omitEmpty .optionalFieldsOnly)
  | output {path} (some : path ≠ "") : Asks .output path (.output path)

/-- Arguments are options with their values, which ask for these settings in turn. -/
inductive Gives : List String → List Setting → Prop where
  | nothing : Gives [] []
  | stop : Gives ["--"] []
  | noTag {arguments settings} (rest : Gives arguments settings) :
      Gives ("--no-tag" :: arguments) (.noTag :: settings)
  | attached {argument opt value setting arguments settings}
      (names : Names argument opt (some value)) (asks : Asks opt value setting)
      (rest : Gives arguments settings) : Gives (argument :: arguments) (setting :: settings)
  | apart {argument opt value setting arguments settings} (names : Names argument opt none)
      (plain : Plain value) (asks : Asks opt value setting) (rest : Gives arguments settings) :
      Gives (argument :: value :: arguments) (setting :: settings)
  /-- Only `--input` takes several values. -/
  | inputs {argument values arguments settings} (names : Names argument .input none)
      (some : values ≠ []) (plain : ∀ value ∈ values, Plain value)
      (rest : Gives arguments settings) :
      Gives (argument :: (values ++ arguments)) (values.map .input ++ settings)

/-- Only `--input` may be repeated. -/
def Setting.Compatible (s t : Setting) : Prop :=
  s.opt = t.opt → s.opt = .input

def Once (settings : List Setting) : Prop :=
  settings.Pairwise Setting.Compatible

/-- The value that settings give, if they give one. -/
def Holds {α : Type} (ask : α → Setting) (settings : List Setting) : Option α → Prop
  | some a => ask a ∈ settings
  | none => ∀ a, ask a ∉ settings

/-- What settings ask for about tags. -/
structure Flags.Given (flags : Flags) (settings : List Setting) : Prop where
  noTag : flags.noTag = true ↔ .noTag ∈ settings
  tagName : ∃ given, Holds .tagName settings given ∧ flags.tagName = given.getD "json"
  omitEmpty : ∃ given, Holds .omitEmpty settings given ∧ flags.omitEmpty = given.getD .none

/-- What settings ask for apart from the command. -/
structure Job.Given (job : Job) (settings : List Setting) : Prop where
  once : Once settings
  inputs : ∃ given, given = settings.filterMap Setting.input? ∧
    job.inputs = if given = [] then ["-"] else given
  pointer : Holds .pointer settings job.pointer
  query : Holds .query settings job.query
  output : Holds .output settings job.output

theorem Asks.opt {opt : Opt} {value : String} {setting : Setting} (asks : Asks opt value setting) :
    setting.opt = opt := by
  cases asks <;> rfl

theorem Asks.ne_noTag {opt : Opt} {value : String} {setting : Setting}
    (asks : Asks opt value setting) : opt ≠ .noTag := by
  cases asks <;> exact nofun

namespace Setting

variable {s : Setting} {value : String}

instance : Std.Symm Compatible where
  symm s t unique same := by
    rw [same]
    exact unique same.symm

end Setting

section

variable {α : Type} {ask : α → Setting} {get? : Setting → Option α} {settings : List Setting}

end

section

variable {settings : List Setting}

end

end GoSchema.CommandLine
