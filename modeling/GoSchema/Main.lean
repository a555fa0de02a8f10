import GoSchema.CommandLine.Run

/-! # The program

Looks at what a job needs of the file system, runs the job on that and carries out the result.
-/

namespace GoSchema.CommandLine

open Files

partial def readAll (input : IO.FS.Stream) (before : ByteArray) : IO ByteArray := do
  let bytes ← input.read 65536
  if bytes.isEmpty then return before else readAll input (before ++ bytes)

/-- The tree of files at a path, without their contents. -/
partial def treeAt (path : String) : IO Node := do
  let place := (← IO.currentDir) / path
  if ← place.isDir then
    let entries ← place.readDir
    let nodes ← entries.toList.mapM fun entry => do
      return (entry.fileName, ← treeAt (path ++ "/" ++ entry.fileName))
    return .folder (nodes.mergeSort fun a b => a.1 ≤ b.1)
  else return .file .empty

/-- The world with everything on the way to a path, and with what the path leads to. -/
def survey (w : World) (path : String) (load : String → IO Node) : IO World := do
  let mut root := w.root
  let mut here := if path.startsWith "/" then [] else w.working
  for part in World.parts path do
    let text := "/" ++ "/".intercalate here
    let place := (← IO.currentDir) / text
    if !(← place.pathExists) then break
    if (root.find? here).isNone then
      root := Node.set (if ← place.isDir then .folder [] else .file .empty) here root
    here := if part = "" ∨ part = "." then here
      else if part = ".." then here.dropLast else here ++ [part]
  let text := "/" ++ "/".intercalate here
  let place := (← IO.currentDir) / text
  if ← place.pathExists then
    let node ← load text
    if !(node.isFolder && (root.find? here).isSome && node.entries.isEmpty) then
      root := Node.set node here root
  return { w with root }

/-- A file with its content, or a folder whose entries do not matter. -/
def contentAt (path : String) : IO Node := do
  let place := (← IO.currentDir) / path
  if ← place.isDir then return .folder [] else return .file (← IO.FS.readBinFile place)

/-- The part of a pattern before its first special character, up to a slash. -/
def fixedFolder (pattern : String) : String :=
  let parts := (World.parts pattern).takeWhile fun part => !isPattern part
  let path := "/".intercalate parts
  if path = "" then (if pattern.startsWith "/" then "/" else ".") else path

def worldFor (job : Job) : IO World := do
  let working := (World.parts (← IO.currentDir).toString).filter (· ≠ "")
  let mut w : World := ⟨Node.set (.folder []) working (.folder []), working, .empty⟩
  for input in job.inputs do
    if isPattern input then w ← survey w (fixedFolder input) treeAt
  let inputs := match expandInputs .standard job.inputs (.start w) with
    | .ok inputs _ => inputs
    | .error _ _ => []
  if inputs.contains stdinName then
    w := { w with stdin := ← readAll (← IO.getStdin) .empty }
  for input in inputs do
    if input ≠ stdinName then w ← survey w input contentAt
  match job.output with
  | some path => survey w path contentAt
  | none => return w

def store (result : Result) (path : String) : IO Unit := do
  match World.parent? path with
  | none | some "" => pure ()
  | some parent => IO.FS.createDirAll parent
  match result.world.read path with
  | .ok content => IO.FS.writeBinFile path content
  | .error _ => pure ()

def runProgram (arguments : List String) : IO UInt32 := do
  let request := Request.ofArguments arguments
  let w ← match request with
    | .job job => worldFor job
    | _ => pure default
  let result := run w arguments
  match request with
  | .job job => if result.exitCode = 0 then (job.output.map (store result)).getD (pure ())
  | _ => pure ()
  IO.print result.stdout
  IO.eprint result.stderr
  return result.exitCode.toUInt32

end GoSchema.CommandLine

def main (arguments : List String) : IO UInt32 :=
  GoSchema.CommandLine.runProgram arguments
