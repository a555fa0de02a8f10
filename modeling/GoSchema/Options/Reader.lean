import GoSchema.Json.Reader
import GoSchema.Options

/-! # Reading options

Options are written as a JSON object whose members name the settings, or as an array that lists
them in order. A setting that is left out has its default value. Members that name no setting are
skipped, even repeated ones; a repeated setting is refused.
-/

namespace GoSchema.Options

inductive Setting where
  | useTag
  | tagName
  | omitEmpty
  deriving DecidableEq, Repr

namespace Setting

/-- The settings in the order of the array form. -/
def all : List Setting :=
  [.useTag, .tagName, .omitEmpty]

def key : Setting → String
  | .useTag => "use_tag"
  | .tagName => "tag_name"
  | .omitEmpty => "omit_empty"

def ofKey? (key : String) : Option Setting :=
  all.find? (·.key = key)

end Setting

def policyName : OmitEmpty → String
  | .none => "none"
  | .allFields => "all_fields"
  | .optionalFieldsOnly => "optional_fields_only"

def policyOfName? (name : String) : Option OmitEmpty :=
  [.none, .allFields, .optionalFieldsOnly].find? (policyName · = name)

/-- A policy is its name, or an object whose only member has that name and the value null. -/
def policy? : Json → Option OmitEmpty
  | .string name => policyOfName? name
  | .object [(name, .null)] => policyOfName? name
  | _ => none

def set? (options : Options) : Setting → Json → Option Options
  | .useTag, .bool b => some { options with useTag := b }
  | .tagName, .string s => some { options with tagName := s }
  | .omitEmpty, value => (policy? value).map fun p => { options with omitEmpty := p }
  | _, _ => none

/-- Read the members of the object form; `seen` lists the settings read before. -/
def ofMembers? (options : Options) (seen : List Setting) : List (String × Json) → Option Options
  | [] => some options
  | (key, value) :: rest =>
    match Setting.ofKey? key with
    | none => ofMembers? options seen rest
    | some setting =>
      if setting ∈ seen then none
      else (options.set? setting value).bind fun o => ofMembers? o (setting :: seen) rest

def ofElements? (options : Options) : List Setting → List Json → Option Options
  | _, [] => some options
  | [], _ :: _ => none
  | setting :: settings, value :: rest =>
    (options.set? setting value).bind fun o => ofElements? o settings rest

/-- The options that a JSON value is, repeated keys included. -/
def ofJson? : Json → Option Options
  | .object members => ofMembers? default [] members
  | .array items => ofElements? default Setting.all items
  | _ => none

/-- The value of a member that names no setting is skipped. -/
def care (reading : Json.Reading) : Json.Care :=
  match reading.outer.getLast? with
  | some (.member _ key) => if (Setting.ofKey? key).isSome then .keep else .skip
  | _ => .keep

def parse? (text : String) : Option Options :=
  (Json.read care text).toOption.bind ofJson?

end GoSchema.Options
