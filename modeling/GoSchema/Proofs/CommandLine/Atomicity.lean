import GoSchema.Proofs.CommandLine.Delivery

/-! # All or nothing

A run in which a step fails for any of its inputs changes nothing and prints no result, whatever the
other inputs are and wherever the result was to go. A run that delivers something does so once,
after everything else.
-/

namespace GoSchema.CommandLine

open Files

variable {libs : Libraries} {w : World} {arguments : List String} {job : Job}
  {selections : List Selection}

/-- What opening an input of a job comes to when its turn is there. -/
def Job.Opens (libs : Libraries) (job : Job) (w : World) (input : String)
    (outcome : Except ReadFault String) : Prop :=
  ∃ front back, Expands libs w job.inputs (front ++ input :: back) ∧
    textOf (front.foldl afterReading w) input = outcome

/-- Nothing can be selected by the query with some code. -/
inductive Unselectable (libs : Libraries) (code : String) (target : Json) : Prop where
  | noQuery {fault} (refused : libs.query code = .error fault) : Unselectable libs code target
  | failed {run e} (compiled : libs.query code = .ok run) (raised : .error e ∈ run target) :
      Unselectable libs code target
  | notJson {run text e} (compiled : libs.query code = .ok run) (printed : .ok text ∈ run target)
      (refused : libs.parse text = .error e) : Unselectable libs code target

/-- Some step of a job fails, for any of its inputs. -/
inductive Job.Spoiled (libs : Libraries) (job : Job) (w : World) : Prop where
  | badPattern {given e} (asked : given ∈ job.inputs) (pattern : isPattern given = true)
      (refused : libs.list w given = .error e) : Spoiled libs job w
  | unlisted {given entries e} (asked : given ∈ job.inputs) (pattern : isPattern given = true)
      (listed : libs.list w given = .ok entries) (wrong : .error e ∈ entries) : Spoiled libs job w
  | noMatch {given} (asked : given ∈ job.inputs) (pattern : isPattern given = true)
      (nothing : libs.list w given = .ok []) : Spoiled libs job w
  | unreadable {input fault} (opens : job.Opens libs w input (.error fault)) : Spoiled libs job w
  | unparsable {input text e} (opens : job.Opens libs w input (.ok text))
      (refused : libs.parse (filled text) = .error e) : Spoiled libs job w
  | noTarget {input text document pointer} (opens : job.Opens libs w input (.ok text))
      (parsed : libs.parse (filled text) = .ok document) (asked : job.pointer = some pointer)
      (lost : libs.pointer? document pointer = none) : Spoiled libs job w
  | unselectable {input text document target code} (opens : job.Opens libs w input (.ok text))
      (parsed : libs.parse (filled text) = .ok document)
      (pointed : Points libs job.pointer document target) (asked : job.query = some code)
      (refused : Unselectable libs code target) : Spoiled libs job w
  | inconvertible {input text documents document e} (opens : job.Opens libs w input (.ok text))
      (selects : Selects libs job text documents) (selected : document ∈ documents)
      (refused : Renders (.ofJson document) job.command (.error e)) : Spoiled libs job w

theorem stands_rightUnique (libs : Libraries) (w : World) :
    Relator.RightUnique (Stands libs w) := by
  intro given inputs inputs' stands stands'
  cases pattern : isPattern given with
  | false =>
      rw [stands_iff_of_not_pattern pattern] at stands stands'
      exact stands.symm.trans stands'
  | true =>
      rw [stands_iff_of_pattern pattern] at stands stands'
      have same := Except.ok.inj (stands.1.symm.trans stands'.1)
      exact List.map_injective_iff.mpr (fun _ _ => Except.ok.inj) same

theorem Expands.unique {given inputs inputs' : List String} (expands : Expands libs w given inputs)
    (expands' : Expands libs w given inputs') : inputs = inputs' := by
  obtain ⟨groups, stands, rfl⟩ := expands
  obtain ⟨groups', stands', rfl⟩ := expands'
  exact congrArg List.flatten ((stands_rightUnique libs w).forall₂ stands stands')

theorem Points.unique {pointer : Option String} {document target target' : Json}
    (points : Points libs pointer document target)
    (points' : Points libs pointer document target') : target = target' := by
  cases pointer with
  | none => exact points.symm.trans points'
  | some pointer => exact Option.some.inj (points.symm.trans points')

theorem Queries.unique {query : Option String} {target : Json} {documents documents' : List Json}
    (queries : Queries libs query target documents)
    (queries' : Queries libs query target documents') : documents = documents' := by
  cases query with
  | none => exact queries.symm.trans queries'
  | some code =>
      exact Except.ok.inj ((select_eq_ok.mpr queries).symm.trans (select_eq_ok.mpr queries'))

theorem Selects.unique {text : String} {documents documents' : List Json}
    (selects : Selects libs job text documents) (selects' : Selects libs job text documents') :
    documents = documents' := by
  obtain ⟨document, target, parsed, points, queries⟩ := selects
  obtain ⟨document', target', parsed', points', queries'⟩ := selects'
  obtain rfl := Except.ok.inj (parsed.symm.trans parsed')
  obtain rfl := points.unique points'
  exact queries.unique queries'

theorem exists_of_forall₂ {α β : Type} {R : α → β → Prop} {as : List α} {bs : List β}
    (related : List.Forall₂ R as bs) : ∀ a ∈ as, ∃ b, R a b :=
  ((List.forall₂_and_left _ _).mp (related.imp fun _ b rel => ⟨⟨b, rel⟩, rel⟩)).1

theorem Expands.exists_stands {given inputs : List String} (expands : Expands libs w given inputs) :
    ∀ input ∈ given, ∃ group, Stands libs w input group := by
  obtain ⟨groups, stands, -⟩ := expands
  exact exists_of_forall₂ stands

theorem Unselectable.not_queries {code : String} {target : Json} {documents : List Json}
    (unselectable : Unselectable libs code target) :
    ¬Queries libs (some code) target documents := by
  rintro ⟨run, compiled, prints⟩
  cases unselectable with
  | noQuery refused => cases compiled.symm.trans refused
  | failed compiled' raised =>
      obtain rfl := Except.ok.inj (compiled.symm.trans compiled')
      obtain ⟨_, _, ⟨⟩, -⟩ := exists_of_forall₂ prints _ raised
  | notJson compiled' printed refused =>
      obtain rfl := Except.ok.inj (compiled.symm.trans compiled')
      obtain ⟨_, _, ⟨⟩, parsed⟩ := exists_of_forall₂ prints _ printed
      cases parsed.symm.trans refused

theorem exists_label {s : Selection} {document : Json} (selected : document ∈ s.documents) :
    ∃ label, (label, document) ∈ s.labelled := by
  have kept : s.labelled.map (·.2) = s.documents := by
    simp [Selection.labelled, Function.comp_def]
  rw [← kept] at selected
  obtain ⟨⟨label, _⟩, labelled, rfl⟩ := List.mem_map.mp selected
  exact ⟨label, labelled⟩

theorem Loads.at_turn {front back : List Selection} {s : Selection}
    (loads : Loads libs job w (front ++ s :: back)) :
    textOf (afterLoading w front) s.input = .ok s.text ∧
      Selects libs job s.text s.documents := by
  induction front generalizing w with
  | nil =>
      cases loads with
      | some text selects => exact ⟨text, selects⟩
  | cons first front ih =>
      cases loads with
      | some _ _ rest => exact ih rest

/-- What is found at the turn of an input is what has been selected. -/
theorem Job.Opens.exists_selection {input : String} {outcome : Except ReadFault String}
    (opens : job.Opens libs w input outcome) (found : job.Finds libs w selections) :
    ∃ s ∈ selections, outcome = .ok s.text ∧ Selects libs job s.text s.documents := by
  obtain ⟨front, back, expands, rfl⟩ := opens
  have split := found.expands.unique expands
  obtain ⟨front', rest, rfl, rfl, behind⟩ := List.map_eq_append_iff.mp split
  obtain ⟨s, back', rfl, rfl, -⟩ := List.map_eq_cons_iff.mp behind
  obtain ⟨text, selects⟩ := found.loads.at_turn
  exact ⟨s, by simp, text, selects⟩

/-- A run in which a step fails does not come to any code. -/
theorem Job.Spoiled.not_converted (spoiled : job.Spoiled libs w)
    (found : job.Finds libs w selections) {parts : List (String × String)}
    (converts : List.Forall₂ (Converts job.command) (batch selections) parts) : False := by
  cases spoiled with
  | badPattern asked pattern refused =>
      obtain ⟨group, stands⟩ := found.expands.exists_stands _ asked
      cases refused.symm.trans ((stands_iff_of_pattern pattern).mp stands).1
  | unlisted asked pattern listed wrong =>
      obtain ⟨group, stands⟩ := found.expands.exists_stands _ asked
      obtain ⟨listed', -⟩ := (stands_iff_of_pattern pattern).mp stands
      obtain rfl := Except.ok.inj (listed.symm.trans listed')
      simp at wrong
  | noMatch asked pattern nothing =>
      obtain ⟨group, stands⟩ := found.expands.exists_stands _ asked
      obtain ⟨listed, some⟩ := (stands_iff_of_pattern pattern).mp stands
      exact some (List.map_eq_nil_iff.mp (Except.ok.inj (listed.symm.trans nothing)))
  | unreadable opens =>
      obtain ⟨s, -, text, -⟩ := opens.exists_selection found
      cases text
  | unparsable opens refused =>
      obtain ⟨s, -, ⟨⟩, document, target, parsed, -⟩ := opens.exists_selection found
      cases refused.symm.trans parsed
  | noTarget opens parsed asked lost =>
      obtain ⟨s, -, ⟨⟩, document, target, parsed', points, -⟩ := opens.exists_selection found
      obtain rfl := Except.ok.inj (parsed.symm.trans parsed')
      rw [asked] at points
      cases lost.symm.trans points
  | unselectable opens parsed pointed asked refused =>
      obtain ⟨s, -, ⟨⟩, document, target, parsed', points, queries⟩ := opens.exists_selection found
      obtain rfl := Except.ok.inj (parsed.symm.trans parsed')
      obtain rfl := pointed.unique points
      rw [asked] at queries
      exact refused.not_queries queries
  | inconvertible opens selects selected refused =>
      obtain ⟨s, chosen, ⟨⟩, selects'⟩ := opens.exists_selection found
      obtain rfl := selects.unique selects'
      obtain ⟨label, labelled⟩ := exists_label selected
      have member : (label, _) ∈ batch selections := List.mem_flatMap.mpr ⟨s, chosen, labelled⟩
      obtain ⟨part, -, converted⟩ := exists_of_forall₂ converts _ member
      cases (renders_iff.mp refused).symm.trans (renders_iff.mp converted)

/-- A run that has left the world of files as it was, with nothing on its standard output. -/
structure Result.LeavesNoTrace (r : Result) (w : World) : Prop where
  root : r.world.root = w.root
  stdout : r.stdout = ""
  events : ∀ event ∈ r.process.events, event.writes = false

/-- What a run does once it has a text: it writes at most once. -/
inductive Outputs (text : String) : Option String → List Event → Prop where
  | printed : Outputs text none [.print text]
  | written {path} : Outputs text (some path) [.writeFile path text.toUTF8]
  | writtenBelow {path parent} :
      Outputs text (some path) [.createFolders parent, .writeFile path text.toUTF8]
  | folderOnly {path parent} : Outputs text (some path) [.createFolders parent]

theorem Prepared.outputs {prepared : World} {path text : String} {events : List Event}
    (folder : Prepared w path prepared events) :
    Outputs text (some path) (events ++ [.writeFile path text.toUTF8]) := by
  cases folder with
  | already => exact .written
  | created => exact .writtenBelow

theorem Delivered.outputs {p : Process} {text : String} {r : Result} {output : Option String}
    (delivered : Delivered p text r output) :
    ∃ after, r.process.events = p.events ++ after ∧ Outputs text output after := by
  cases delivered with
  | printed _ _ record => exact ⟨_, record, .printed⟩
  | stored folder _ _ _ record => exact ⟨_, record, folder.outputs⟩
  | unwritable folder _ _ _ record => exact ⟨_, record, folder.outputs⟩
  | noFolder _ _ _ _ record => exact ⟨_, record, .folderOnly⟩

/-- Whatever happens to a run: either nothing comes of it, or everything has been found and
converted before anything is written. -/
theorem run_cases (asked : libs.request arguments = .job job) :
    ((libs.run w arguments).exitCode = 1 ∧ (libs.run w arguments).LeavesNoTrace w) ∨
      ∃ selections parts after, job.Finds libs w selections ∧
        List.Forall₂ (Converts job.command) (batch selections) parts ∧
        (libs.run w arguments).process.events = job.trace selections ++ after ∧
        Outputs (assembled parts ++ "\n") job.output after := by
  cases result : job.code libs (.start w) with
  | ok code q =>
      obtain ⟨selections, parts, found, converts, rfl, rfl⟩ := code_eq_ok.mp result
      obtain ⟨after, record, outputs⟩ := (delivered_of_converts asked found converts).outputs
      exact .inr ⟨selections, parts, after, found, converts, record, outputs⟩
  | error e q =>
      have unseen := code_reads libs job (.start w)
      rw [result] at unseen
      have silent := unseen.stdout
      obtain ⟨root, more, events, seen⟩ := unseen
      replace events : q.events = [] ++ more := events
      rw [List.nil_append] at events
      rw [Libraries.run, asked]
      simp only [Job.run, Task.bind_of_error result]
      exact .inl ⟨rfl, root, silent, by simpa [Result.ofOutcome, events] using seen⟩

theorem trace_reads (job : Job) (selections : List Selection) :
    ∀ event ∈ job.trace selections, event.writes = false := by
  have loading (s : Selection) : ∀ event ∈ s.trace, event.writes = false := by
    by_cases same : s.input = stdinName <;> simp [Selection.trace, reading, same, Event.writes]
  simp only [Job.trace, List.forall_mem_append, List.forall_mem_map, List.forall_mem_flatMap]
  exact ⟨⟨fun _ _ => rfl, fun s _ => loading s⟩, fun _ _ => rfl⟩

/-- Does an event hand out a result? -/
def Event.delivers : Event → Bool
  | .print _ | .writeFile _ _ => true
  | _ => false

theorem Outputs.countP_le {text : String} {output : Option String} {after : List Event}
    (outputs : Outputs text output after) : after.countP Event.delivers ≤ 1 := by
  cases outputs <;> simp [Event.delivers, List.countP_cons]

/-- A run in which some step fails leaves no trace. Any other run that leaves one writes at most
once, when all documents have been loaded, selected and converted. -/
theorem run_atomic (asked : libs.request arguments = .job job) :
    (job.Spoiled libs w →
        (libs.run w arguments).exitCode = 1 ∧ (libs.run w arguments).LeavesNoTrace w) ∧
      ((libs.run w arguments).exitCode = 1 ∧ (libs.run w arguments).LeavesNoTrace w ∨
        ∃ selections parts after, job.Finds libs w selections ∧
          List.Forall₂ (Converts job.command) (batch selections) parts ∧
          (libs.run w arguments).process.events = job.trace selections ++ after ∧
          (∀ event ∈ job.trace selections, event.writes = false) ∧
          Outputs (assembled parts ++ "\n") job.output after ∧
          after.countP Event.delivers ≤ 1) := by
  rcases run_cases asked with
    untouched | ⟨selections, parts, after, found, converts, record, outputs⟩
  · exact ⟨fun _ => untouched, .inl untouched⟩
  · refine ⟨fun spoiled => (spoiled.not_converted found converts).elim, .inr ?_⟩
    exact ⟨selections, parts, after, found, converts, record, trace_reads job selections, outputs,
      outputs.countP_le⟩

/-- The standard input is JSON and the file is not. The result was to replace the file. -/
theorem run_atomic_overwrittenInput :
    let w := loneFile "\x7b" "\x7b\"n\":1\x7d".toUTF8
    let r := run w ["format", "-i", "-", "a", "-o", "a"]
    r.exitCode = 1 ∧ r.LeavesNoTrace w := by
  intro w r
  let job : Job := ⟨.format, ["-", "a"], none, none, some "a"⟩
  have asked : Libraries.standard.request ["format", "-i", "-", "a", "-o", "a"] = .job job := rfl
  have opens : job.Opens .standard w "a" (.ok "\x7b") :=
    ⟨["-"], [], ⟨[["-"], ["a"]], .cons (.itself rfl) (.cons (.itself rfl) .nil), rfl⟩,
      textOf_of_content (contentOf_loneFile "\x7b" .empty)⟩
  have refused : Libraries.standard.parse (filled "\x7b") =
      .error "EOF while parsing an object at line 1 column 1" := by
    decide +kernel
  exact (run_atomic asked).1 (.unparsable opens refused)

end GoSchema.CommandLine
