import GoSchema.Options

/-! # Jobs

What a command line asks for: which documents to load, what to select from them, how to convert
them and where to write the result.
-/

namespace GoSchema.CommandLine

/-- What is asked for about the tags of fields. -/
structure Flags where
  noTag : Bool
  tagName : String
  omitEmpty : OmitEmpty
  deriving DecidableEq, Repr

def Flags.options (flags : Flags) : Options :=
  ⟨!flags.noTag, flags.tagName, flags.omitEmpty⟩

inductive Command where
  /-- The objects of one slot are merged. -/
  | convert (flags : Flags)
  /-- Every object has a declaration of its own. -/
  | format
  deriving DecidableEq, Repr

structure Job where
  command : Command
  /-- Paths, path patterns, or `-` for the standard input. -/
  inputs : List String
  /-- The JSON pointer to what is converted of each document. -/
  pointer : Option String
  /-- The query whose outputs are converted. -/
  query : Option String
  /-- The file to write; without one the result goes to the standard output. -/
  output : Option String
  deriving DecidableEq, Repr

inductive Request where
  | job (job : Job)
  /-- Nothing but a text to print. -/
  | shown (text : String)
  /-- The command line cannot be understood, as the text says. -/
  | refused (text : String)
  deriving DecidableEq, Repr

end GoSchema.CommandLine
