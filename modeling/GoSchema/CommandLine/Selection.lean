import GoSchema.CommandLine.Libraries

/-! # Selecting with queries

Every output of a query is written as a text and read again as JSON, so what is selected is always a
document that could have been given directly.
-/

namespace GoSchema.CommandLine

inductive SelectionError where
  | noQuery (fault : QueryFault)
  | failed (error : String)
  | notJson (error : String)
  deriving DecidableEq, Repr

def SelectionError.message : SelectionError → String
  | .noQuery fault => "invalid jq expression:\n" ++ fault.description
  | .failed error => "jq evaluation failed: " ++ error
  | .notJson error => "jq produced non-JSON output: " ++ error

/-- The error that lies behind another one. -/
def SelectionError.cause? : SelectionError → Option String
  | .notJson error => some error
  | .noQuery _ | .failed _ => none

namespace Libraries

variable (libs : Libraries)

def documentOf (output : Except String String) : Except SelectionError Json :=
  match output with
  | .error e => .error (.failed e)
  | .ok text => (libs.parse text).mapError .notJson

/-- The documents that a query selects from a document, or the first error on the way. -/
def select (code : String) (document : Json) : Except SelectionError (List Json) :=
  match libs.query code with
  | .error fault => .error (.noQuery fault)
  | .ok run => (run document).mapM libs.documentOf

end Libraries
end GoSchema.CommandLine
