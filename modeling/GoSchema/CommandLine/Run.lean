import GoSchema.CommandLine.Batch
import GoSchema.CommandLine.Standard

/-! # Running a command line

Nothing is written before the whole result is there. It then goes either to the standard output
or to one file, whose folder is created if need be.
-/

namespace GoSchema.CommandLine

open Files

/-- How a process has ended. -/
structure Result where
  exitCode : Nat
  stderr : String
  process : Process

namespace Result

def stdout (r : Result) : String :=
  r.process.stdout

def world (r : Result) : World :=
  r.process.world

def ofOutcome : EStateM.Result BatchError Process Unit → Result
  | .ok () p => ⟨0, "", p⟩
  | .error e p => ⟨1, "error: " ++ e.message ++ "\n", p⟩

end Result

/-- Create the folder that a file is to be written into. -/
def prepareFolder (path : String) : Task BatchError Unit := do
  match World.parent? path with
  | none | some "" => return
  | some parent =>
    match ← Task.createFolders parent with
    | .ok () => return
    | .error fault => throw (.noFolder parent fault)

def deliver (output : Option String) (text : String) : Task BatchError Unit := do
  match output with
  | none => Task.print text
  | some path =>
    prepareFolder path
    match ← Task.writeFile path text.toUTF8 with
    | .ok () => return
    | .error fault => throw (.unwritable path fault)

def Job.run (libs : Libraries) (job : Job) : Task BatchError Unit := do
  let code ← job.code libs
  deliver job.output (code ++ "\n")

/-- Run a command line over any libraries. -/
def Libraries.run (libs : Libraries) (w : World) (arguments : List String) : Result :=
  match libs.request arguments with
  | .job job => .ofOutcome (job.run libs (.start w))
  | .shown text => .ofOutcome (Task.print text (.start w))
  | .refused text => ⟨2, text, .start w⟩

def run (w : World) (arguments : List String) : Result :=
  Libraries.standard.run w arguments

end GoSchema.CommandLine
