import GoSchema.CommandLine.Run
import GoSchema.Proofs.CommandLine.Batch
import GoSchema.Proofs.CommandLine.Arguments

/-! # What a run delivers

A run over documents that are all converted delivers the text of the batch, either to the standard
output or to a file that holds this text afterwards. Otherwise it fails with the error of the first
document that is not converted.
-/

namespace GoSchema.CommandLine

open Files

namespace Process

theorem join_printed {events : List Event} (seen : ∀ event ∈ events, event.writes = false) :
    String.join (events.map Event.printed) = "" := by
  induction events with
  | nil => rfl
  | cons event events ih =>
      obtain ⟨head, tail⟩ := List.forall_mem_cons.mp seen
      have quiet : event.printed = "" := by
        cases event with
        | print text => cases head
        | _ => rfl
      simp [quiet, ih tail]

theorem Unseen.stdout {p q : Process} (unseen : p.Unseen q) : q.stdout = p.stdout := by
  obtain ⟨-, more, events, seen⟩ := unseen
  simp [Process.stdout, events, join_printed seen]

end Process

/-- A run that ends well. -/
structure Result.Succeeds (r : Result) (stdout : String) : Prop where
  exitCode : r.exitCode = 0
  stdout : r.stdout = stdout
  stderr : r.stderr = ""

/-- A run that ends with an error and prints nothing else. -/
structure Result.Fails (r : Result) (e : BatchError) : Prop where
  exitCode : r.exitCode = 1
  stdout : r.stdout = ""
  stderr : r.stderr = "error: " ++ e.message ++ "\n"

def foldersCreated (w : World) (path : String) : World × Except OsFault Unit :=
  w.createFolders (path.startsWith "/") (World.parts path).reverse

/-- The folder of a path is there, or it has been created. -/
inductive Prepared (w : World) (path : String) : World → List Event → Prop where
  | already (bare : World.parent? path = none ∨ World.parent? path = some "") :
      Prepared w path w []
  | created {parent prepared} (above : World.parent? path = some parent) (named : parent ≠ "")
      (done : foldersCreated w parent = (prepared, .ok ())) :
      Prepared w path prepared [.createFolders parent]

/-- How a run ends once it has a text. Only the system can refuse to take it. -/
inductive Delivered (p : Process) (text : String) (r : Result) : Option String → Prop where
  | printed (succeeds : r.Succeeds text) (same : r.world = p.world)
      (record : r.process.events = p.events ++ [.print text]) : Delivered p text r none
  | stored {path prepared events} (folder : Prepared p.world path prepared events)
      (written : prepared.write path text.toUTF8 = .ok r.world)
      (readable : r.world.read path = .ok text.toUTF8) (succeeds : r.Succeeds "")
      (record : r.process.events = p.events ++ (events ++ [.writeFile path text.toUTF8])) :
      Delivered p text r (some path)
  | unwritable {path prepared events fault} (folder : Prepared p.world path prepared events)
      (refused : prepared.write path text.toUTF8 = .error fault) (same : r.world = prepared)
      (fails : r.Fails (.unwritable path fault))
      (record : r.process.events = p.events ++ (events ++ [.writeFile path text.toUTF8])) :
      Delivered p text r (some path)
  | noFolder {path parent fault} (above : World.parent? path = some parent) (named : parent ≠ "")
      (refused : foldersCreated p.world parent = (r.world, .error fault))
      (fails : r.Fails (.noFolder parent fault))
      (record : r.process.events = p.events ++ [.createFolders parent]) :
      Delivered p text r (some path)

section

variable {p : Process} {path parent text : String} {prepared : World} {fault : OsFault}

theorem prepareFolder_of_bare
    (bare : World.parent? path = none ∨ World.parent? path = some "") :
    prepareFolder path p = .ok () p := by
  rw [prepareFolder]
  rcases bare with bare | bare
  · rw [bare]
    rfl
  · rw [bare]
    rfl

theorem prepareFolder_of_named {outcome : Except OsFault Unit}
    (above : World.parent? path = some parent) (named : parent ≠ "")
    (result : foldersCreated p.world parent = (prepared, outcome)) :
    prepareFolder path p =
      Task.ofExcept (outcome.mapError (.noFolder parent))
        ⟨prepared, p.events ++ [.createFolders parent]⟩ := by
  have done : (Task.createFolders parent : Task BatchError _) p =
      .ok outcome ⟨prepared, p.events ++ [.createFolders parent]⟩ := by
    rw [Task.createFolders, Task.call, ← foldersCreated, result]
  rw [prepareFolder, above]
  simp only [Task.bind_of_ok done]
  cases outcome <;> rfl

/-- Either the folder of a path is prepared, or the run ends. -/
theorem prepareFolder_cases (path : String) (p : Process) :
    (∃ prepared events, Prepared p.world path prepared events ∧
        prepareFolder path p = .ok () ⟨prepared, p.events ++ events⟩) ∨
      ∃ parent prepared fault, World.parent? path = some parent ∧ parent ≠ "" ∧
        foldersCreated p.world parent = (prepared, .error fault) ∧
        prepareFolder path p =
          .error (.noFolder parent fault) ⟨prepared, p.events ++ [.createFolders parent]⟩ := by
  by_cases bare : World.parent? path = none ∨ World.parent? path = some ""
  · exact .inl ⟨p.world, [], .already bare, by simp [prepareFolder_of_bare bare]⟩
  · obtain ⟨higher, unnamed⟩ := not_or.mp bare
    obtain ⟨parent, above⟩ := Option.ne_none_iff_exists'.mp higher
    have named : parent ≠ "" := by
      rintro rfl
      exact unnamed above
    obtain ⟨prepared, outcome, result⟩ :
        ∃ prepared outcome, foldersCreated p.world parent = (prepared, outcome) := ⟨_, _, rfl⟩
    have ended := prepareFolder_of_named above named result
    cases outcome with
    | ok => exact .inl ⟨prepared, _, .created above named result, ended⟩
    | error fault => exact .inr ⟨parent, prepared, fault, above, named, result, ended⟩

theorem join_printed_of_prepared {w : World} {events : List Event}
    (folder : Prepared w path prepared events) : String.join (events.map Event.printed) = "" := by
  cases folder with
  | already => rfl
  | created => rfl

theorem writeFile_of_ok {content : ByteArray} {written : World}
    (result : p.world.write path content = .ok written) :
    (Task.writeFile path content : Task BatchError _) p =
      .ok (.ok ()) ⟨written, p.events ++ [.writeFile path content]⟩ := by
  simp [Task.writeFile, Task.call, result]

theorem writeFile_of_error {content : ByteArray}
    (result : p.world.write path content = .error fault) :
    (Task.writeFile path content : Task BatchError _) p =
      .ok (.error fault) ⟨p.world, p.events ++ [.writeFile path content]⟩ := by
  simp [Task.writeFile, Task.call, result]

theorem delivered_of_deliver (output : Option String) (text : String) (quiet : p.stdout = "") :
    Delivered p text (.ofOutcome (deliver output text p)) output := by
  rw [Process.stdout] at quiet
  cases output with
  | none =>
      refine .printed ⟨rfl, ?_, rfl⟩ rfl rfl
      change Process.stdout ⟨p.world, p.events ++ [.print text]⟩ = text
      simp [Process.stdout, quiet, Event.printed]
  | some path =>
      rw [deliver]
      rcases prepareFolder_cases path p with
        ⟨prepared, events, folder, ended⟩ | ⟨parent, prepared, fault, above, named, result, ended⟩
      · have silent (left : World) :
            Process.stdout ⟨left, p.events ++ events ++ [.writeFile path text.toUTF8]⟩ = "" := by
          simp [Process.stdout, quiet, join_printed_of_prepared folder, Event.printed]
        have record := List.append_assoc p.events events [.writeFile path text.toUTF8]
        rw [Task.bind_of_ok ended]
        cases result : prepared.write path text.toUTF8 with
        | ok written =>
            rw [Task.bind_of_ok (writeFile_of_ok result)]
            exact .stored folder result (World.read_write result) ⟨rfl, silent written, rfl⟩ record
        | error fault =>
            rw [Task.bind_of_ok (writeFile_of_error result)]
            exact .unwritable folder result rfl ⟨rfl, silent prepared, rfl⟩ record
      · rw [Task.bind_of_error ended]
        refine .noFolder above named result ⟨rfl, ?_, rfl⟩ rfl
        change Process.stdout ⟨prepared, p.events ++ [.createFolders parent]⟩ = ""
        simp [Process.stdout, quiet, Event.printed]

end

variable {libs : Libraries} {w : World} {arguments : List String} {job : Job}
  {selections : List Selection}

theorem delivered_of_converts (asked : libs.request arguments = .job job)
    (found : job.Finds libs w selections) {parts : List (String × String)}
    (converts : List.Forall₂ (Converts job.command) (batch selections) parts) :
    Delivered ⟨afterLoading w selections, job.trace selections⟩ (assembled parts ++ "\n")
      (libs.run w arguments) job.output := by
  have code : job.code libs (.start w) = _ :=
    code_eq_ok.mpr ⟨selections, parts, found, converts, rfl, rfl⟩
  have unseen := code_reads libs job (.start w)
  rw [code] at unseen
  rw [Libraries.run, asked]
  simp only [Job.run, Task.bind_of_ok code]
  exact delivered_of_deliver job.output _ unseen.stdout

/-- A working folder with one file, and a standard input. -/
def loneFile (text : String) (stdin : ByteArray) : World :=
  ⟨.folder [("a", .file text.toUTF8)], [], stdin⟩

theorem parts_a : World.parts "a" = ["a"] := by
  have begun : ¬String.Pos.Raw.atEnd "a" 0 = true := nofun
  have other : ¬(String.Pos.Raw.get "a" 0 == String.Pos.Raw.get "/" 0) = true := by decide
  have ended : String.Pos.Raw.atEnd "a" (String.Pos.Raw.next "a" 0) = true := rfl
  rw [World.parts, String.splitOn, if_neg (by decide), String.splitOnAux, if_neg begun,
    if_neg other, String.splitOnAux]
  exact if_pos ended

theorem contentOf_loneFile (text : String) (stdin : ByteArray) :
    contentOf (loneFile text stdin) "a" = .ok text.toUTF8 := by
  have located : (loneFile text stdin).locate "a" = .ok ["a"] := by
    rw [World.locate, if_neg (by decide), parts_a]
    cases "a".startsWith "/" <;> rfl
  exact World.read_eq_ok.mpr ⟨["a"], located, rfl⟩

end GoSchema.CommandLine
