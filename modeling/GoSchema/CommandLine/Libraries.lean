import GoSchema.CommandLine.Job
import GoSchema.Files.World
import GoSchema.Json.Value

/-! # Libraries

What the program leaves to others: to understand its command line, to look up path patterns, to
read JSON, to follow JSON pointers and to run queries. Whatever they answer, the program is the
same.
-/

namespace GoSchema.CommandLine

/-- Why there is no query with some code. -/
inductive QueryFault where
  /-- Errors, each with the code that it is in. -/
  | unreadable (errors : List (String × String))
  /-- For each code its names without a meaning and what they were taken for. -/
  | undefined (names : List (String × List (String × String)))
  deriving DecidableEq, Repr

def QueryFault.description : QueryFault → String
  | .unreadable errors =>
    "\n".intercalate (errors.map fun (error, code) =>
      "parse error: " ++ error ++ " in `" ++ code ++ "`")
  | .undefined names =>
    "\n".intercalate (names.flatMap fun (code, inCode) => inCode.map fun (name, role) =>
      "undefined `" ++ name ++ "`: " ++ role ++ " in `" ++ code ++ "`")

/-- Answers that are errors are texts. -/
structure Libraries where
  request : List String → Request
  /-- The paths that fit a pattern. The pattern can be wrong, and so can each of the paths be. -/
  list : Files.World → String → Except String (List (Except String String))
  /-- The document that a JSON text holds. -/
  parse : String → Except String Json
  /-- What a JSON pointer leads to. -/
  pointer? : Json → String → Option Json
  /-- The query with some code. Its outputs for a document are written as texts. -/
  query : String → Except QueryFault (Json → List (Except String String))

end GoSchema.CommandLine
