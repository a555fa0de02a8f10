import GoSchema.Rendering
import GoSchema.Schema.Inference

/-! # Converting samples

From a JSON document to the Go declarations of its type.
-/

namespace GoSchema

inductive ConversionError where
  /-- The text is no JSON document. -/
  | parse (error : Json.Error)
  /-- The declarations cannot be written in Go. -/
  | render (error : Source.Error)
  deriving DecidableEq, Repr

def ConversionError.message : ConversionError → String
  | .parse e => "json unmarshal Error: " ++ e.message
  | .render e => "code format error: " ++ e.message

namespace Sample

/-- The declarations of a sample, with the objects of one slot merged. -/
def convert (options : Options) (sample : Sample) : Except ConversionError String :=
  (render options (sample.decls .unified)).mapError .render

/-- The declarations of a sample, one for every object, with the default options. -/
def outline (sample : Sample) : Except ConversionError String :=
  (render .default (sample.decls .separate)).mapError .render

def read (text : String) : Except ConversionError Sample :=
  (parse text).mapError .parse

end Sample

def convert (options : Options) (text : String) : Except ConversionError String :=
  Sample.read text >>= Sample.convert options

/-- Convert a JSON text without merging any objects. -/
def outline (text : String) : Except ConversionError String :=
  Sample.read text >>= Sample.outline

end GoSchema
