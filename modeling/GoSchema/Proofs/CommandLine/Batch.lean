import GoSchema.CommandLine.Batch
import GoSchema.Proofs.CommandLine.Task
import GoSchema.Proofs.Files.Writing
import Mathlib.Data.List.Forall2

/-! # Batches without processes

What a batch comes to, stated without what happens on the way: which inputs it has, which documents
are selected from their texts, and what text their codes make up. The code of a job is there exactly
when all of this is.
-/

namespace GoSchema.CommandLine

open Files

/-- The inputs that stand for a given one. -/
inductive Stands (libs : Libraries) (w : World) (given : String) : List String → Prop where
  | itself (plain : isPattern given = false) : Stands libs w given [given]
  | paths {paths : List String} (pattern : isPattern given = true)
      (found : libs.list w given = .ok (paths.map .ok)) (some : paths ≠ []) :
      Stands libs w given paths

/-- The inputs that stand for all given ones, in turn. -/
def Expands (libs : Libraries) (w : World) (given inputs : List String) : Prop :=
  ∃ groups, List.Forall₂ (Stands libs w) given groups ∧ groups.flatten = inputs

def contentOf (w : World) (input : String) : Except OsFault ByteArray :=
  if input = stdinName then .ok w.stdin else w.read input

/-- The text of an input. -/
def textOf (w : World) (input : String) : Except ReadFault String :=
  match contentOf w input with
  | .error fault => .error (.os fault)
  | .ok content =>
    match String.fromUTF8? content with
    | some text => .ok text
    | none => .error .notUtf8

/-- The world once an input has been read: nothing is left of the standard input. -/
def afterReading (w : World) (input : String) : World :=
  if input = stdinName then { w with stdin := .empty } else w

/-- A text without content counts as the placeholder. -/
def filled (text : String) : String :=
  if Text.isBlank text then placeholder else text

section

variable (libs : Libraries)

def Points : Option String → Json → Json → Prop
  | none, document, target => document = target
  | some pointer, document, target => libs.pointer? document pointer = some target

/-- An output of a query is the text of a document. -/
def Prints (output : Except String String) (document : Json) : Prop :=
  ∃ text, output = .ok text ∧ libs.parse text = .ok document

def Queries : Option String → Json → List Json → Prop
  | none, target, documents => [target] = documents
  | some code, target, documents =>
    ∃ run, libs.query code = .ok run ∧ List.Forall₂ (Prints libs) (run target) documents

/-- The documents that are selected from a text. -/
def Selects (job : Job) (text : String) (documents : List Json) : Prop :=
  ∃ document target, libs.parse (filled text) = .ok document ∧
    Points libs job.pointer document target ∧ Queries libs job.query target documents

end

/-- An input with its text and the documents selected from it. -/
structure Selection where
  input : String
  text : String
  documents : List Json

namespace Selection

/-- What a document is called. Its number counts only where there are several. -/
def label (s : Selection) (i : Nat) : String :=
  if 2 ≤ s.documents.length then s.input ++ " [" ++ toString i ++ "]" else s.input

def labelled (s : Selection) : List (String × Json) :=
  s.documents.zipIdx.map fun (document, i) => (s.label i, document)

end Selection

/-- Inputs have the texts that they are found with when they are read in turn. -/
inductive Loads (libs : Libraries) (job : Job) : World → List Selection → Prop where
  | none {w} : Loads libs job w []
  | some {w s others} (text : textOf w s.input = .ok s.text)
      (selects : Selects libs job s.text s.documents)
      (rest : Loads libs job (afterReading w s.input) others) : Loads libs job w (s :: others)

structure Job.Finds (libs : Libraries) (job : Job) (w : World) (selections : List Selection) :
    Prop where
  expands : Expands libs w job.inputs (selections.map (·.input))
  loads : Loads libs job w selections

/-- All documents under their labels. -/
def batch (selections : List Selection) : List (String × Json) :=
  selections.flatMap Selection.labelled

/-- What becomes of a sample on its own: `convert` takes what was asked for about tags as options,
and `format` has none. -/
inductive Renders (sample : Sample) : Command → Except ConversionError String → Prop where
  | convert (flags : Flags) :
      Renders sample (.convert flags)
        (sample.convert ⟨!flags.noTag, flags.tagName, flags.omitEmpty⟩)
  | format : Renders sample .format sample.outline

/-- The code of a document on its own, under the same label. -/
def Converts (command : Command) (document : String × Json) (part : String × String) : Prop :=
  document.1 = part.1 ∧ Renders (.ofJson document.2) command (.ok part.2)

/-- A code under a comment with its label, if it is one of several. -/
def commented (several : Bool) (part : String × String) : String :=
  if several then "// " ++ part.1 ++ "\n" ++ part.2 else part.2

/-- The text of a batch: its parts with blank lines between them. -/
def assembled (parts : List (String × String)) : String :=
  "\n\n".intercalate (parts.map (commented (2 ≤ parts.length)))

/-- The world once several inputs have been read. -/
def afterLoading (w : World) (selections : List Selection) : World :=
  (selections.map (·.input)).foldl afterReading w

/-- What is put on record when an input is read. -/
def reading (input : String) : Event :=
  if input = stdinName then .readStdin else .readFile input

/-- What is put on record when an input is loaded. -/
def Selection.trace (s : Selection) : List Event :=
  [reading s.input, .loaded s.input]

/-- What is on record once all documents have been converted. -/
def Job.trace (job : Job) (selections : List Selection) : List Event :=
  (job.inputs.filter isPattern).map .list ++ selections.flatMap Selection.trace ++
    (batch selections).map (.converted ·.1)

/-- The document as a command converts it. -/
def Document.ofLabelled (document : String × Json) : Document :=
  ⟨document.1, .ofJson document.2⟩

variable {libs : Libraries} {job : Job} {w : World} {p q : Process}

theorem textOf_of_content {input text : String} (content : contentOf w input = .ok text.toUTF8) :
    textOf w input = .ok text := by
  rw [textOf, content]
  simp [String.fromUTF8?, text.isValidUTF8, String.fromUTF8]

theorem stands_iff_of_not_pattern {given : String} {inputs : List String}
    (plain : isPattern given = false) : Stands libs w given inputs ↔ [given] = inputs := by
  constructor
  · intro stands
    cases stands with
    | itself => rfl
    | paths pattern => cases plain.symm.trans pattern
  · rintro rfl
    exact .itself plain

theorem stands_iff_of_pattern {given : String} {inputs : List String}
    (pattern : isPattern given = true) :
    Stands libs w given inputs ↔ libs.list w given = .ok (inputs.map .ok) ∧ inputs ≠ [] := by
  constructor
  · intro stands
    cases stands with
    | itself plain => cases plain.symm.trans pattern
    | paths _ found some => exact ⟨found, some⟩
  · rintro ⟨found, some⟩
    exact .paths pattern found some

theorem mapM_eq_ok {ε α β : Type} {f : α → Except ε β} {as : List α} {bs : List β} :
    as.mapM f = .ok bs ↔ List.Forall₂ (fun a b => f a = .ok b) as bs := by
  induction as generalizing bs with
  | nil => simp [pure, Except.pure, eq_comm]
  | cons a as ih =>
      simp only [List.mapM_cons, Except.bind_eq_ok, ih, List.forall₂_cons_left_iff]
      constructor
      · rintro ⟨b, head, bs, tail, ⟨⟩⟩
        exact ⟨b, bs, head, tail, rfl⟩
      · rintro ⟨b, bs, head, tail, rfl⟩
        exact ⟨b, head, bs, tail, rfl⟩

theorem mapM_id_eq_ok {ε α : Type} {entries : List (Except ε α)} {as : List α} :
    entries.mapM id = .ok as ↔ entries = as.map .ok := by
  rw [mapM_eq_ok]
  constructor
  · intro all
    induction all with
    | nil => rfl
    | cons head _ ih => rw [List.map_cons, ← ih, ← head, id]
  · rintro rfl
    exact List.forall₂_map_left_iff.mpr (List.forall₂_same.mpr fun _ _ => rfl)

theorem expandInput_eq_ok {given : String} {inputs : List String} :
    expandInput libs given p = .ok inputs q ↔
      Stands libs p.world given inputs ∧
        ⟨p.world, p.events ++ ([given].filter isPattern).map .list⟩ = q := by
  rw [expandInput]
  cases pattern : isPattern given with
  | false =>
      simp [stands_iff_of_not_pattern pattern, pattern]
  | true =>
      simp only [stands_iff_of_pattern pattern, if_true, Task.bind_eq_ok, Task.list,
        Task.call_eq_ok]
      cases listed : libs.list p.world given with
      | error e => simp
      | ok entries =>
          simp only [← mapM_id_eq_ok, Except.ok.injEq]
          cases collected : entries.mapM id with
          | error e => simp [collected]
          | ok paths =>
              cases paths with
              | nil => simp [collected]
              | cons path paths =>
                  have some : path :: paths = inputs → inputs ≠ [] := by
                    rintro rfl
                    exact List.cons_ne_nil path paths
                  simpa [collected, pattern] using fun _ => some

theorem mapM_expandInput_eq_ok {given : List String} {groups : List (List String)} :
    given.mapM (expandInput libs) p = .ok groups q ↔
      List.Forall₂ (Stands libs p.world) given groups ∧
        ⟨p.world, p.events ++ (given.filter isPattern).map .list⟩ = q := by
  induction given generalizing p groups with
  | nil => simp
  | cons first given ih =>
      rw [Task.mapM_cons_eq_ok]
      simp only [expandInput_eq_ok, ih]
      constructor
      · rintro ⟨inputs, _, rest, ⟨stands, rfl⟩, ⟨others, rfl⟩, rfl⟩
        refine ⟨.cons stands others, ?_⟩
        rw [List.append_assoc, ← List.map_append, ← List.filter_append, List.singleton_append]
      · rintro ⟨stands, rfl⟩
        cases stands with
        | cons stands others =>
            refine ⟨_, _, _, ⟨stands, rfl⟩, ⟨others, ?_⟩, rfl⟩
            rw [List.append_assoc, ← List.map_append, ← List.filter_append, List.singleton_append]

theorem expandInputs_eq_ok {given inputs : List String} :
    expandInputs libs given p = .ok inputs q ↔
      Expands libs p.world given inputs ∧
        ⟨p.world, p.events ++ (given.filter isPattern).map .list⟩ = q := by
  simp only [expandInputs, Task.bind_eq_ok, Task.pure_eq_ok, mapM_expandInput_eq_ok, Expands]
  constructor
  · rintro ⟨groups, _, ⟨stands, rfl⟩, rfl, rfl⟩
    exact ⟨⟨groups, stands, rfl⟩, rfl⟩
  · rintro ⟨⟨groups, stands, rfl⟩, rfl⟩
    exact ⟨groups, _, ⟨stands, rfl⟩, rfl, rfl⟩

theorem readContent_apply (input : String) (p : Process) :
    readContent input p =
      .ok (contentOf p.world input) ⟨afterReading p.world input, p.events ++ [reading input]⟩ := by
  by_cases same : input = stdinName
  · simp only [readContent, same, contentOf, afterReading, reading, if_true]
    rfl
  · simp [readContent, same, contentOf, afterReading, reading, Task.readFile]

theorem readInput_eq_ok {input text : String} :
    readInput input p = .ok text q ↔
      textOf p.world input = .ok text ∧
        ⟨afterReading p.world input, p.events ++ [reading input]⟩ = q := by
  rw [readInput, Task.bind_of_ok (readContent_apply input p), textOf]
  cases contentOf p.world input with
  | error fault => simp
  | ok content => cases decoded : String.fromUTF8? content <;> simp [decoded]

theorem parseInput_eq_ok {input text : String} {document : Json} :
    parseInput libs input text = .ok document ↔ libs.parse (filled text) = .ok document := by
  rw [parseInput, ← filled]
  cases libs.parse (filled text) <;> simp [Except.mapError]

theorem followPointer_eq_ok {pointer : Option String} {input : String} {document target : Json} :
    followPointer libs pointer input document = .ok target ↔
      Points libs pointer document target := by
  cases pointer with
  | none => simp [followPointer, Points]
  | some pointer =>
      simp only [followPointer, Points]
      cases libs.pointer? document pointer <;> simp

theorem documentOf_eq_ok {output : Except String String} {document : Json} :
    libs.documentOf output = .ok document ↔ Prints libs output document := by
  cases output with
  | error e => simp [Libraries.documentOf, Prints]
  | ok text =>
      simp only [Libraries.documentOf, Prints, Except.ok.injEq, exists_eq_left']
      cases libs.parse text <;> simp [Except.mapError]

theorem select_eq_ok {code : String} {target : Json} {documents : List Json} :
    libs.select code target = .ok documents ↔ Queries libs (some code) target documents := by
  simp only [Libraries.select, Queries]
  cases libs.query code with
  | error fault => simp
  | ok run => simp [mapM_eq_ok, documentOf_eq_ok]

theorem runQuery_eq_ok {query : Option String} {input : String} {target : Json}
    {documents : List Json} :
    runQuery libs query input target = .ok documents ↔ Queries libs query target documents := by
  cases query with
  | none => simp [runQuery, Queries]
  | some code =>
      rw [runQuery, ← select_eq_ok]
      cases libs.select code target <;> simp [Except.mapError]

theorem selectFrom_eq_ok {input text : String} {documents : List Json} :
    selectFrom libs job input text = .ok documents ↔ Selects libs job text documents := by
  simp only [selectFrom, Except.bind_eq_ok, parseInput_eq_ok, followPointer_eq_ok, runQuery_eq_ok,
    Selects, exists_and_left]

theorem label_eq (s : Selection) :
    label s.input s.documents = s.labelled.map .ofLabelled := by
  obtain ⟨input, text, documents⟩ := s
  match documents with
  | [] => rfl
  | [document] => rfl
  | first :: second :: others =>
      simp [label, Selection.labelled, Selection.label, Document.ofLabelled]

theorem loadInput_eq_ok {input : String} {documents : List Document} :
    loadInput libs job input p = .ok documents q ↔
      ∃ s : Selection, s.input = input ∧ textOf p.world s.input = .ok s.text ∧
        Selects libs job s.text s.documents ∧ s.labelled.map .ofLabelled = documents ∧
        ⟨afterReading p.world s.input, p.events ++ s.trace⟩ = q := by
  simp only [loadInput, Task.bind_eq_ok, readInput_eq_ok, Task.ofExcept_eq_ok, selectFrom_eq_ok,
    Task.note, Task.call_eq_ok, Task.pure_eq_ok]
  constructor
  · rintro ⟨text, _, ⟨held, rfl⟩, selected, _, ⟨selects, rfl⟩, _, _, ⟨-, rfl⟩, rfl, rfl⟩
    exact ⟨⟨input, text, selected⟩, rfl, held, selects, (label_eq _).symm,
      by simp [Selection.trace]⟩
  · rintro ⟨⟨input, text, selected⟩, rfl, held, selects, rfl, rfl⟩
    exact ⟨text, _, ⟨held, rfl⟩, selected, _, ⟨selects, rfl⟩, (), _, ⟨trivial, rfl⟩, label_eq _,
      by simp [Selection.trace]⟩

theorem mapM_loadInput_eq_ok {inputs : List String} {loaded : List (List Document)} :
    inputs.mapM (loadInput libs job) p = .ok loaded q ↔
      ∃ selections : List Selection, selections.map (·.input) = inputs ∧
        Loads libs job p.world selections ∧
        selections.map (fun s => s.labelled.map .ofLabelled) = loaded ∧
        ⟨afterLoading p.world selections, p.events ++ selections.flatMap Selection.trace⟩ = q := by
  induction inputs generalizing p loaded with
  | nil =>
      constructor
      · intro done
        obtain ⟨rfl, rfl⟩ := Task.pure_eq_ok.mp done
        exact ⟨[], rfl, .none, rfl, by simp [afterLoading]⟩
      · rintro ⟨selections, none, -, rfl, rfl⟩
        obtain rfl := List.map_eq_nil_iff.mp none
        simp [afterLoading]
  | cons input inputs ih =>
      rw [Task.mapM_cons_eq_ok]
      simp only [loadInput_eq_ok, ih]
      constructor
      · rintro ⟨_, _, _, ⟨s, rfl, text, selects, rfl, rfl⟩, ⟨others, rfl, loads, rfl, rfl⟩, rfl⟩
        exact ⟨s :: others, rfl, .some text selects loads, rfl, by simp [afterLoading]⟩
      · rintro ⟨selections, same, loads, rfl, rfl⟩
        cases loads with
        | none => cases same
        | some text selects rest =>
            obtain ⟨rfl, rfl⟩ := List.cons.inj same
            exact ⟨_, _, _, ⟨_, rfl, text, selects, rfl, rfl⟩,
              ⟨_, rfl, rest, rfl, by simp [afterLoading]⟩, rfl⟩

theorem load_eq_ok {documents : List Document} :
    load libs job p = .ok documents q ↔
      ∃ selections, job.Finds libs p.world selections ∧
        (batch selections).map .ofLabelled = documents ∧
        ⟨afterLoading p.world selections, p.events ++
          ((job.inputs.filter isPattern).map .list ++
            selections.flatMap Selection.trace)⟩ = q := by
  simp only [load, Task.bind_eq_ok, expandInputs_eq_ok, mapM_loadInput_eq_ok, Task.pure_eq_ok]
  have flattened (selections : List Selection) :
      (selections.map fun s => s.labelled.map Document.ofLabelled).flatten =
        (batch selections).map .ofLabelled := by
    rw [batch, List.map_flatMap, List.flatMap_def]
  constructor
  · rintro ⟨_, _, ⟨expands, rfl⟩, _, _, ⟨selections, rfl, loads, rfl, rfl⟩, rfl, rfl⟩
    exact ⟨selections, ⟨expands, loads⟩, (flattened _).symm, by simp⟩
  · rintro ⟨selections, ⟨expands, loads⟩, rfl, rfl⟩
    exact ⟨_, _, ⟨expands, rfl⟩, _, _, ⟨selections, rfl, loads, rfl, rfl⟩, flattened _, by simp⟩

section Rendering

variable {command : Command} {several : Bool} {documents : List (String × Json)}

theorem renders_iff {sample : Sample} {outcome : Except ConversionError String} :
    Renders sample command outcome ↔ command.run sample = outcome := by
  constructor
  · intro renders
    cases renders <;> rfl
  · rintro rfl
    cases command with
    | convert flags => exact .convert flags
    | format => exact .format

theorem renderDocument_eq_ok {document : String × Json} {text : String} :
    renderDocument command several (.ofLabelled document) p = .ok text q ↔
      ∃ part, Converts command document part ∧ commented several part = text ∧
        ⟨p.world, p.events ++ [.converted document.1]⟩ = q := by
  rw [renderDocument, Document.ofLabelled]
  simp only [Converts, renders_iff]
  cases converted : command.run (.ofJson document.2) with
  | error e => simp
  | ok code =>
      simp only [Task.bind_eq_ok, Task.note, Task.call_eq_ok, Task.pure_eq_ok,
        commented, Except.ok.injEq]
      constructor
      · rintro ⟨_, _, ⟨-, rfl⟩, rfl, rfl⟩
        exact ⟨(document.1, code), ⟨rfl, rfl⟩, rfl, rfl⟩
      · rintro ⟨⟨_, _⟩, ⟨rfl, rfl⟩, rfl, rfl⟩
        exact ⟨(), _, ⟨trivial, rfl⟩, rfl, rfl⟩

theorem mapM_renderDocument_eq_ok {texts : List String} :
    (documents.map .ofLabelled).mapM (renderDocument command several) p = .ok texts q ↔
      ∃ parts, List.Forall₂ (Converts command) documents parts ∧
        parts.map (commented several) = texts ∧
        ⟨p.world, p.events ++ documents.map (.converted ·.1)⟩ = q := by
  induction documents generalizing p texts with
  | nil => simp
  | cons document documents ih =>
      rw [List.map_cons, Task.mapM_cons_eq_ok]
      simp only [renderDocument_eq_ok, ih]
      constructor
      · rintro ⟨_, _, _, ⟨part, converts, rfl, rfl⟩, ⟨parts, others, rfl, rfl⟩, rfl⟩
        exact ⟨part :: parts, .cons converts others, rfl, by simp⟩
      · rintro ⟨parts, converts, rfl, rfl⟩
        cases converts with
        | cons converts others =>
            exact ⟨_, _, _, ⟨_, converts, rfl, rfl⟩, ⟨_, others, rfl, by simp⟩, rfl⟩

theorem render_eq_ok {text : String} :
    render command (documents.map .ofLabelled) p = .ok text q ↔
      ∃ parts, List.Forall₂ (Converts command) documents parts ∧ assembled parts = text ∧
        ⟨p.world, p.events ++ documents.map (.converted ·.1)⟩ = q := by
  simp only [render, Task.bind_eq_ok, mapM_renderDocument_eq_ok, Task.pure_eq_ok, List.length_map]
  constructor
  · rintro ⟨_, _, ⟨parts, converts, rfl, rfl⟩, rfl, rfl⟩
    exact ⟨parts, converts, by rw [assembled, converts.length_eq]; rfl, rfl⟩
  · rintro ⟨parts, converts, rfl, rfl⟩
    exact ⟨_, _, ⟨parts, converts, rfl, rfl⟩, by rw [assembled, converts.length_eq]; rfl, rfl⟩

end Rendering

/-- There is code exactly when all inputs are found and all documents are converted. -/
theorem code_eq_ok {code : String} :
    job.code libs p = .ok code q ↔
      ∃ selections parts, job.Finds libs p.world selections ∧
        List.Forall₂ (Converts job.command) (batch selections) parts ∧ assembled parts = code ∧
        ⟨afterLoading p.world selections, p.events ++ job.trace selections⟩ = q := by
  simp only [Job.code, Task.bind_eq_ok, load_eq_ok]
  constructor
  · rintro ⟨_, _, ⟨selections, found, rfl, rfl⟩, rendered⟩
    obtain ⟨parts, converts, rfl, rfl⟩ := render_eq_ok.mp rendered
    exact ⟨selections, parts, found, converts, rfl, by simp [Job.trace]⟩
  · rintro ⟨selections, parts, found, converts, rfl, rfl⟩
    exact ⟨_, _, ⟨selections, found, rfl, rfl⟩,
      render_eq_ok.mpr ⟨parts, converts, rfl, by simp [Job.trace]⟩⟩

theorem expandInput_reads (libs : Libraries) (given : String) :
    (expandInput libs given).Reads := by
  rw [expandInput]
  split
  · refine (Task.Reads.call rfl fun _ => rfl).bind fun listed => ?_
    split
    · exact .throw _
    · split
      · exact .throw _
      · exact .throw _
      · exact .pure _
  · exact .pure _

theorem readContent_reads (input : String) : (readContent input).Reads := by
  rw [readContent]
  split
  · exact (Task.Reads.call rfl fun _ => rfl).bind fun content => .pure _
  · exact .call rfl fun _ => rfl

theorem readInput_reads (input : String) : (readInput input).Reads := by
  refine (readContent_reads input).bind fun content => ?_
  split
  · exact .throw _
  · split
    · exact .pure _
    · exact .throw _

theorem loadInput_reads (libs : Libraries) (job : Job) (input : String) :
    (loadInput libs job input).Reads :=
  (readInput_reads input).bind fun _ => (Task.Reads.ofExcept _).bind fun _ =>
    (Task.Reads.call rfl fun _ => rfl).bind fun _ => .pure _

theorem load_reads (libs : Libraries) (job : Job) : (load libs job).Reads :=
  ((Task.Reads.mapM (expandInput_reads libs) job.inputs).bind fun _ => .pure _).bind fun inputs =>
    (Task.Reads.mapM (loadInput_reads libs job) inputs).bind fun _ => .pure _

theorem renderDocument_reads (command : Command) (several : Bool) (document : Document) :
    (renderDocument command several document).Reads := by
  rw [renderDocument]
  split
  · exact .throw _
  · exact (Task.Reads.call rfl fun _ => rfl).bind fun _ => .pure _

/-- A job leaves no trace before its code is there, nor when there is none. -/
theorem code_reads (libs : Libraries) (job : Job) : (job.code libs).Reads :=
  (load_reads libs job).bind fun documents =>
    (Task.Reads.mapM (renderDocument_reads job.command _) documents).bind fun _ => .pure _

end GoSchema.CommandLine
