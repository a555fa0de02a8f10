import GoSchema.CommandLine.Libraries

/-! # Processes

A process sees a world and may change it. It looks up patterns, reads inputs, creates folders,
writes files and prints, and what it has done stays on record. A task that fails leaves the process
as it is at that moment.
-/

namespace GoSchema.CommandLine

open Files

/-- Something that a process does, whether it is successful or not. -/
inductive Event where
  | list (pattern : String)
  | readStdin
  | readFile (path : String)
  /-- The documents of an input have been selected. -/
  | loaded (input : String)
  /-- A document has been converted. -/
  | converted (label : String)
  /-- Also the folders above. -/
  | createFolders (path : String)
  | writeFile (path : String) (content : ByteArray)
  | print (text : String)

namespace Event

/-- Can it be seen from outside? -/
def writes : Event → Bool
  | .createFolders _ | .writeFile _ _ | .print _ => true
  | .list _ | .readStdin | .readFile _ | .loaded _ | .converted _ => false

def printed : Event → String
  | .print text => text
  | _ => ""

end Event

structure Process where
  world : World
  /-- What has been done, the first event first. -/
  events : List Event

namespace Process

def start (w : World) : Process :=
  ⟨w, []⟩

def stdout (p : Process) : String :=
  String.join (p.events.map Event.printed)

end Process

abbrev Task (ε α : Type) :=
  EStateM ε Process α

namespace Task

variable {ε α : Type}

/-- Do something to the world and put it on record. -/
def call (event : Event) (f : World → World × α) : Task ε α := fun p =>
  .ok (f p.world).2 ⟨(f p.world).1, p.events ++ [event]⟩

/-- Put on record what leaves the world as it is. -/
def note (event : Event) : Task ε Unit :=
  call event fun w => (w, ())

def ofExcept : Except ε α → Task ε α
  | .ok a => pure a
  | .error e => throw e

def list (libs : Libraries) (pattern : String) :
    Task ε (Except String (List (Except String String))) :=
  call (.list pattern) fun w => (w, libs.list w pattern)

/-- Read the standard input to its end, after which it is empty. -/
def readStdin : Task ε ByteArray :=
  call .readStdin fun w => ({ w with stdin := .empty }, w.stdin)

def readFile (path : String) : Task ε (Except OsFault ByteArray) :=
  call (.readFile path) fun w => (w, w.read path)

def createFolders (path : String) : Task ε (Except OsFault Unit) :=
  call (.createFolders path) fun w =>
    w.createFolders (path.startsWith "/") (World.parts path).reverse

def writeFile (path : String) (content : ByteArray) : Task ε (Except OsFault Unit) :=
  call (.writeFile path content) fun w =>
    match w.write path content with
    | .ok written => (written, .ok ())
    | .error fault => (w, .error fault)

def print (text : String) : Task ε Unit :=
  note (.print text)

end Task
end GoSchema.CommandLine
