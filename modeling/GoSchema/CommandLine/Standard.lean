import GoSchema.CommandLine.Arguments
import GoSchema.CommandLine.Libraries
import GoSchema.Files.Pattern
import GoSchema.Json.Pointer
import GoSchema.Json.Reader
import GoSchema.Query.Evaluation
import GoSchema.Query.Parser

/-! # The libraries of the program

What the program is run with. It understands the queries that select and rearrange, and takes any
other one for unreadable.
-/

namespace GoSchema.CommandLine

open Files

/-- The outputs of a query as JSON texts. -/
def outputsOf (filter : Query.Filter) (document : Json) : List (Except String String) :=
  (filter.run [] (.ofJson document)).map fun
    | .ok value => .ok value.text
    | .error fault => .error fault.value.text

def Libraries.standard : Libraries where
  request := Request.ofArguments
  list w pattern :=
    match Pattern.paths w pattern with
    | .ok paths => .ok (paths.map .ok)
    | .error e => .error e.message
  parse text := (Json.parse text).mapError (·.message)
  pointer? := Json.pointer?
  query code :=
    match Query.Parser.parse? code with
    | some filter => .ok (outputsOf filter)
    | none => .error (.unreadable [("no filter", code)])

end GoSchema.CommandLine
