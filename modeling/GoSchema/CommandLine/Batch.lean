import GoSchema.CommandLine.Process
import GoSchema.CommandLine.Selection
import GoSchema.Conversion

/-! # Batches of documents

All inputs of a job are expanded, then all documents are loaded and selected, and only then is
any of them converted. The first failure on this way is the failure of the whole batch.
-/

namespace GoSchema.CommandLine

open Files

inductive ReadFault where
  | os (fault : OsFault)
  | notUtf8
  deriving DecidableEq, Repr

def ReadFault.message : ReadFault → String
  | .os fault => fault.message
  | .notUtf8 => "stream did not contain valid UTF-8"

inductive BatchError where
  | badPattern (pattern : String) (error : String)
  /-- One of the paths that fit a pattern cannot be looked at. -/
  | unlisted (error : String)
  | noMatch (pattern : String)
  | unreadable (input : String) (fault : ReadFault)
  | unparsable (input : String) (error : String)
  | noTarget (pointer input : String)
  | unselectable (input : String) (error : SelectionError)
  | inconvertible (label : String) (error : ConversionError)
  | noFolder (path : String) (fault : OsFault)
  | unwritable (path : String) (fault : OsFault)

/-- The input that stands for the standard input. -/
def stdinName : String :=
  "-"

def BatchError.message : BatchError → String
  | .badPattern pattern e => "invalid glob pattern " ++ pattern ++ ": " ++ e
  | .unlisted e => e
  | .noMatch pattern => "glob pattern matched no files: " ++ pattern
  | .unreadable input fault =>
    "failed to read " ++ (if input = stdinName then "stdin" else input) ++ ": " ++ fault.message
  | .unparsable input e =>
    "failed to parse " ++ input ++ ": json unmarshal Error: " ++ e ++ ": " ++ e
  | .noTarget pointer input => "JSON pointer " ++ pointer ++ " matched nothing in " ++ input
  | .unselectable input e =>
    ": ".intercalate
      (("failed to apply jq expression to " ++ input) :: e.message :: e.cause?.toList)
  | .inconvertible label (.render e) =>
    "failed to convert " ++ label ++ ": " ++ (ConversionError.render e).message ++ ": " ++ e.message
  | .inconvertible label (.parse e) =>
    "failed to convert " ++ label ++ ": " ++ (ConversionError.parse e).message ++ ": " ++ e.message
  | .noFolder path fault => "failed to create " ++ path ++ ": " ++ fault.message
  | .unwritable path fault => "failed to write " ++ path ++ ": " ++ fault.message

structure Document where
  label : String
  sample : Sample
  deriving Repr

/-- The text that stands in for an input without content. -/
def placeholder : String :=
  "\x7b\"sample\":\"paste the json here\"\x7d"

/-- Does an input stand for the paths that fit it? -/
def isPattern (input : String) : Bool :=
  input.toList.any fun c => c == '*' || c == '?' || c == '[' || c == '\x7b'

def readContent (input : String) : Task BatchError (Except OsFault ByteArray) := do
  if input = stdinName then return .ok (← Task.readStdin)
  else Task.readFile input

def readInput (input : String) : Task BatchError String := do
  match ← readContent input with
  | .error fault => throw (.unreadable input (.os fault))
  | .ok bytes =>
    match String.fromUTF8? bytes with
    | some text => return text
    | none => throw (.unreadable input .notUtf8)

/-- Label what has been selected from one input. Several documents are numbered from 0. -/
def label (input : String) (documents : List Json) : List Document :=
  match documents with
  | [document] => [⟨input, .ofJson document⟩]
  | _ =>
    documents.zipIdx.map fun (document, i) =>
      ⟨input ++ " [" ++ toString i ++ "]", .ofJson document⟩

section

variable (libs : Libraries)

/-- The inputs that one given input stands for. -/
def expandInput (input : String) : Task BatchError (List String) := do
  if isPattern input then
    match ← Task.list libs input with
    | .error e => throw (.badPattern input e)
    | .ok entries =>
      match entries.mapM id with
      | .error e => throw (.unlisted e)
      | .ok [] => throw (.noMatch input)
      | .ok paths => return paths
  else return [input]

def expandInputs (inputs : List String) : Task BatchError (List String) := do
  let expanded ← inputs.mapM (expandInput libs)
  return expanded.flatten

/-- The document in a text. Where there are only blanks, the placeholder stands in. -/
def parseInput (input text : String) : Except BatchError Json :=
  (libs.parse (if Text.isBlank text then placeholder else text)).mapError (.unparsable input)

def followPointer (pointer : Option String) (input : String) (document : Json) :
    Except BatchError Json :=
  match pointer with
  | none => .ok document
  | some p =>
    match libs.pointer? document p with
    | some target => .ok target
    | none => .error (.noTarget p input)

def runQuery (query : Option String) (input : String) (document : Json) :
    Except BatchError (List Json) :=
  match query with
  | none => .ok [document]
  | some q => (libs.select q document).mapError (.unselectable input)

/-- The documents that a job selects from the text of an input. -/
def selectFrom (job : Job) (input text : String) : Except BatchError (List Json) := do
  let document ← parseInput libs input text
  let target ← followPointer libs job.pointer input document
  runQuery libs job.query input target

def loadInput (job : Job) (input : String) : Task BatchError (List Document) := do
  let text ← readInput input
  let selected ← Task.ofExcept (selectFrom libs job input text)
  Task.note (.loaded input)
  return label input selected

def load (job : Job) : Task BatchError (List Document) := do
  let inputs ← expandInputs libs job.inputs
  let loaded ← inputs.mapM (loadInput libs job)
  return loaded.flatten

end

def Command.run : Command → Sample → Except ConversionError String
  | .convert flags, sample => sample.convert flags.options
  | .format, sample => sample.outline

/-- The code for one document, under a comment with its label if it is one of several. -/
def renderDocument (command : Command) (labelled : Bool) (document : Document) :
    Task BatchError String := do
  match command.run document.sample with
  | .error e => throw (.inconvertible document.label e)
  | .ok code =>
    Task.note (.converted document.label)
    return if labelled then "// " ++ document.label ++ "\n" ++ code else code

def render (command : Command) (documents : List Document) : Task BatchError String := do
  let parts ← documents.mapM (renderDocument command (1 < documents.length))
  return "\n\n".intercalate parts

def Job.code (libs : Libraries) (job : Job) : Task BatchError String := do
  let documents ← load libs job
  render job.command documents

end GoSchema.CommandLine
