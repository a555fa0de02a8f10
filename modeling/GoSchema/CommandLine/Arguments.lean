import GoSchema.CommandLine.Job

/-! # Reading the command line

A subcommand is followed by options. An option takes its value from the next argument, or after an
equals sign, or, when it is a single letter, from the rest of its argument. `--input` takes every
argument up to the next option. A value begins with a dash only when it is a dash alone or stands
after an equals sign. Only `--input` may be repeated.
-/

namespace GoSchema.CommandLine

/-- An option of a subcommand that takes a value, or the one that takes none. -/
inductive Opt where
  | pointer
  | query
  | input
  | noTag
  | tagName
  | omitEmpty
  | output
  deriving DecidableEq, Repr

namespace Opt

def common : List Opt :=
  [.pointer, .query, .input, .output]

def ofConvert : List Opt :=
  common ++ [.noTag, .tagName, .omitEmpty]

/-- The name after two dashes. -/
def long : Opt → String
  | .pointer => "json-pointer"
  | .query => "jq-expr"
  | .input => "input"
  | .noTag => "no-tag"
  | .tagName => "tag-name"
  | .omitEmpty => "omitempty"
  | .output => "out"

/-- The letter after one dash. -/
def short? : Opt → Option Char
  | .input => some 'i'
  | .output => some 'o'
  | _ => none

end Opt

/-- Something that an option asks for. -/
inductive Setting where
  | pointer (p : String)
  | query (code : String)
  | input (path : String)
  | noTag
  | tagName (name : String)
  | omitEmpty (policy : OmitEmpty)
  | output (path : String)
  deriving DecidableEq, Repr

namespace Setting

def opt : Setting → Opt
  | .pointer _ => .pointer
  | .query _ => .query
  | .input _ => .input
  | .noTag => .noTag
  | .tagName _ => .tagName
  | .omitEmpty _ => .omitEmpty
  | .output _ => .output

def pointer? : Setting → Option String
  | .pointer p => some p
  | _ => none

def query? : Setting → Option String
  | .query code => some code
  | _ => none

def input? : Setting → Option String
  | .input path => some path
  | _ => none

def tagName? : Setting → Option String
  | .tagName name => some name
  | _ => none

def omitEmpty? : Setting → Option OmitEmpty
  | .omitEmpty policy => some policy
  | _ => none

def output? : Setting → Option String
  | .output path => some path
  | _ => none

end Setting

def policyOfName? : String → Option OmitEmpty
  | "none" => some .none
  | "all-fields" => some .allFields
  | "optional-fields-only" => some .optionalFieldsOnly
  | _ => none

/-- What an option asks for with a value, if the value suits it. -/
def Opt.setting? (value : String) : Opt → Option Setting
  | .pointer => some (.pointer value)
  | .query => some (.query value)
  | .input => some (.input value)
  | .noTag => none
  | .tagName => some (.tagName value)
  | .omitEmpty => (policyOfName? value).map .omitEmpty
  | .output => if value = "" then none else some (.output value)

def Flags.ofSettings (settings : List Setting) : Flags where
  noTag := settings.contains .noTag
  tagName := (settings.findSome? Setting.tagName?).getD Options.defaultTagName
  omitEmpty := (settings.findSome? Setting.omitEmpty?).getD .none

def Job.ofSettings (command : Flags → Command) (settings : List Setting) : Job where
  command := command (.ofSettings settings)
  inputs :=
    let inputs := settings.filterMap Setting.input?
    if inputs = [] then ["-"] else inputs
  pointer := settings.findSome? Setting.pointer?
  query := settings.findSome? Setting.query?
  output := settings.findSome? Setting.output?

/-- What the next argument may be. -/
inductive Expecting where
  | option
  | value (opt : Opt)
  /-- One more value of `--input`, or an option. -/
  | moreInput
  /-- Nothing: options have ended. -/
  | nothing
  deriving DecidableEq, Repr

inductive Outcome where
  | continue (settings : List Setting) (expecting : Expecting)
  | help
  | misuse

namespace Outcome

/-- An option has got the only value that it takes here. -/
def ofValue (given : List Setting) (opt : Opt) (value : String) (next : Expecting) : Outcome :=
  match opt.setting? value with
  | some setting => .continue (given ++ [setting]) next
  | none => .misuse

/-- An option has been named, with a value in the same argument or without one. -/
def ofOption (given : List Setting) (opt : Opt) (attached : Option String) : Outcome :=
  if given.any (·.opt = opt) ∧ opt ≠ .input then .misuse
  else
    match opt, attached with
    | .noTag, none => .continue (given ++ [.noTag]) .option
    | .noTag, some _ => .misuse
    | _, some value => ofValue given opt value .option
    | _, none => .continue given (.value opt)

/-- An argument after two dashes. -/
def ofLong (opts : List Opt) (given : List Setting) (text : String) : Outcome :=
  let name := String.ofList (text.toList.takeWhile (· != '='))
  let attached := (text.toList.dropWhile (· != '=')).tail?.map String.ofList
  if name = "help" ∧ attached = none then .help
  else
    match opts.find? (·.long = name) with
    | some opt => ofOption given opt attached
    | none => .misuse

/-- The value behind the letter of an option, after an equals sign or directly. -/
def valueBehind : List Char → Option String
  | [] => none
  | '=' :: value => some (String.ofList value)
  | value => some (String.ofList value)

/-- An argument after one dash: the letter of an option and the rest of the argument. -/
def ofShort (opts : List Opt) (given : List Setting) (letter : Char) (rest : List Char) :
    Outcome :=
  if letter = 'h' then .help
  else
    match opts.find? (·.short? = some letter) with
    | some opt => ofOption given opt (valueBehind rest)
    | none => .misuse

/-- An argument that starts with a dash and has more than that. -/
def ofDashed (opts : List Opt) (given : List Setting) (arg : String) : Outcome :=
  match arg.toList with
  | ['-', '-'] => .continue given .nothing
  | '-' :: '-' :: rest => ofLong opts given (String.ofList rest)
  | '-' :: letter :: rest => ofShort opts given letter rest
  | _ => .misuse

/-- Can an argument be a value on its own? -/
def isValue (arg : String) : Bool :=
  arg == "-" || arg.toList.head? != some '-'

def ofArgument (opts : List Opt) (given : List Setting) (expecting : Expecting) (arg : String) :
    Outcome :=
  match expecting with
  | .nothing => .misuse
  | .value opt =>
    if isValue arg then ofValue given opt arg (if opt = .input then .moreInput else .option)
    else .misuse
  | .moreInput =>
    if isValue arg then ofValue given .input arg .moreInput else ofDashed opts given arg
  | .option => if isValue arg then .misuse else ofDashed opts given arg

end Outcome

def versionText : String :=
  "json2struct 0.1.0\n"

def helpText : String :=
  "infer Go struct declarations from JSON samples\n\n" ++
  "Usage: json2struct <COMMAND>\n\n" ++
  "Commands:\n" ++
  "  convert  infer types, merging arrays of objects into one struct\n" ++
  "  format   one struct per object, nothing merged\n"

namespace Request

def misuse : Request :=
  .refused "error: the command line is not understood; see --help\n"

/-- Read what follows a subcommand, from what has been given so far. -/
def ofOptions (opts : List Opt) (command : Flags → Command) (given : List Setting)
    (expecting : Expecting) : List String → Request
  | [] =>
    match expecting with
    | .value _ => misuse
    | _ => .job (.ofSettings command given)
  | arg :: rest =>
    match Outcome.ofArgument opts given expecting arg with
    | .continue given expecting => ofOptions opts command given expecting rest
    | .help => .shown helpText
    | .misuse => misuse

/-- Read a command line, without the name of the program. -/
def ofArguments : List String → Request
  | "convert" :: rest => ofOptions Opt.ofConvert .convert [] .option rest
  | "format" :: rest => ofOptions Opt.common (fun _ => .format) [] .option rest
  | ["help"] | ["help", "convert"] | ["help", "format"] | ["help", "help"] => .shown helpText
  | arg :: _ =>
    if arg = "--version" ∨ arg.startsWith "-V" then .shown versionText
    else if arg = "--help" ∨ arg.startsWith "-h" then .shown helpText
    else misuse
  | [] => misuse

end Request
end GoSchema.CommandLine
