import GoSchema.Files.World

/-! # What has been written can be read

A written file is found under the path that it was written to. Nothing gets lost on the way there:
replacing what is no folder keeps every folder with all its entries, so that a path leads where it
led before.
-/

namespace GoSchema

theorem Except.bind_eq_ok {ε α β : Type} {x : Except ε α} {f : α → Except ε β} {b : β} :
    x >>= f = .ok b ↔ ∃ a, x = .ok a ∧ f a = .ok b := by
  cases x with
  | error e => simp [bind, Except.bind]
  | ok a => simp [bind, Except.bind]

namespace Files
namespace Node

variable {name : String} {names : List String} {node old new root : Node}
  {entries : List (String × Node)}

@[simp]
theorem lookup_putEntry_self (name : String) (node : Node) (entries : List (String × Node)) :
    (putEntry name node entries).lookup name = some node := by
  induction entries with
  | nil => simp [putEntry]
  | cons entry rest ih =>
      obtain ⟨n, old⟩ := entry
      rw [putEntry]
      split
      · simp
      · split
        case isTrue => simp
        case isFalse different => simpa [List.lookup_cons, beq_false_of_ne different] using ih

theorem lookup_putEntry_of_ne {other : String} (distinct : other ≠ name) (node : Node)
    (entries : List (String × Node)) :
    (putEntry name node entries).lookup other = entries.lookup other := by
  have passed : (other == name) = false := beq_false_of_ne distinct
  induction entries with
  | nil => simp [putEntry, List.lookup_cons, passed]
  | cons entry rest ih =>
      obtain ⟨n, old⟩ := entry
      rw [putEntry]
      split
      · simp [List.lookup_cons, passed]
      · split
        case isTrue same => simp [List.lookup_cons, ← same, passed]
        case isFalse => simp [List.lookup_cons, ih]

@[simp]
theorem find?_nil (root : Node) : root.find? [] = some root := rfl

@[simp]
theorem find?_folder_cons (entries : List (String × Node)) (name : String) (names : List String) :
    (folder entries).find? (name :: names) = (entries.lookup name).bind (find? names) := rfl

theorem find?_append (names more : List String) (root : Node) :
    root.find? (names ++ more) = (root.find? names).bind (find? more) := by
  induction names generalizing root with
  | nil => rfl
  | cons name names ih =>
      cases root with
      | file content => rfl
      | folder entries =>
          simp only [List.cons_append, find?_folder_cons, Option.bind_assoc]
          exact congrArg _ (funext ih)

theorem exists_child (there : root.find? (name :: names) = some node) :
    ∃ entries child, root = .folder entries ∧ entries.lookup name = some child ∧
      child.find? names = some node := by
  cases root with
  | file content => cases there
  | folder entries =>
      obtain ⟨child, held, there⟩ := Option.bind_eq_some_iff.mp there
      exact ⟨entries, child, rfl, held, there⟩

/-- What is put below a node changes the node only. -/
theorem set_append (there : root.find? names = some node) (new : Node) (more : List String) :
    set new (names ++ more) root = set (set new more node) names root := by
  induction names generalizing root with
  | nil =>
      cases there
      rfl
  | cons name names ih =>
      obtain ⟨entries, child, rfl, held, there⟩ := exists_child there
      simp only [List.cons_append, set, held, Option.getD_some, ih there]

theorem find?_set (there : root.find? names = some old) (new : Node) :
    (set new names root).find? names = some new := by
  induction names generalizing root with
  | nil => rfl
  | cons name names ih =>
      obtain ⟨entries, child, rfl, held, there⟩ := exists_child there
      simp [set, held, ih there]

theorem find?_set_entry (there : root.find? names = some (.folder entries)) (name : String)
    (new : Node) :
    ∃ more, (set new (names ++ [name]) root).find? names = some (.folder more) ∧
      more.lookup name = some new := by
  refine ⟨putEntry name new entries, ?_, lookup_putEntry_self ..⟩
  rw [set_append there]
  exact find?_set there _

/-- Every folder is still there and has at least the names that it had. -/
def Keeps (old new : Node) : Prop :=
  ∀ names entries, old.find? names = some (.folder entries) →
    ∃ more, new.find? names = some (.folder more) ∧
      ∀ name, (entries.lookup name).isSome → (more.lookup name).isSome

theorem Keeps.refl (node : Node) : node.Keeps node :=
  fun _ entries there => ⟨entries, there, fun _ held => held⟩

theorem keeps_of_not_folder (file : ∀ entries, old ≠ .folder entries) (new : Node) :
    old.Keeps new := by
  intro names entries there
  cases old with
  | folder held => cases file held rfl
  | file content => cases names <;> cases there

/-- Only a folder in the place of what is put there could get lost. -/
theorem keeps_set (free : ∀ entries, root.find? names ≠ some (.folder entries)) (new : Node) :
    root.Keeps (set new names root) := by
  induction names generalizing root with
  | nil => exact keeps_of_not_folder (fun entries same => free entries (congrArg some same)) new
  | cons name names ih =>
      cases root with
      | file content => exact .refl _
      | folder entries =>
          intro path held there
          cases path with
          | nil =>
              cases there
              refine ⟨_, rfl, fun other listed => ?_⟩
              by_cases same : other = name
              · simp [same]
              · rwa [lookup_putEntry_of_ne same]
          | cons other path =>
              by_cases same : other = name
              · subst same
                obtain ⟨_, child, ⟨⟩, listed, there⟩ := exists_child there
                have below : ∀ entries, child.find? names ≠ some (.folder entries) := by
                  simpa [listed] using free
                obtain ⟨more, found, kept⟩ := ih below path held there
                exact ⟨more, by simp [set, listed, found], kept⟩
              · refine ⟨held, ?_, fun _ listed => listed⟩
                simpa [set, lookup_putEntry_of_ne same] using there

end Node

namespace World

open Node

variable {w w' : World} {root new : Node} {here there ps : List String} {path : String}
  {content : ByteArray} {entries : List (String × Node)} {names : List String} {fault : OsFault}

/-- Where a part of a path leads in a folder with some entries. -/
inductive Leads (entries : List (String × Node)) (here : List String) :
    String → List String → Prop where
  | stay {part} (idle : part = "" ∨ part = ".") : Leads entries here part here
  | rise : Leads entries here ".." here.tail
  | enter {part} (named : ¬(part = "" ∨ part = ".") ∧ part ≠ "..")
      (held : (entries.lookup part).isSome) : Leads entries here part (part :: here)

theorem follow_cons {part : String} (found : root.find? here.reverse = some (.folder entries))
    (leads : Leads entries here part there) (ps : List String) :
    follow root here (part :: ps) = follow root there ps := by
  cases leads with
  | stay idle => simp [follow, found, idle]
  | rise => simp [follow, found]
  | enter named held => simp [follow, found, named, held]

theorem follow_cons_eq_ok {part : String} :
    follow root here (part :: ps) = .ok there ↔
      ∃ entries next, root.find? here.reverse = some (.folder entries) ∧
        Leads entries here part next ∧ follow root next ps = .ok there := by
  constructor
  · intro led
    rw [follow] at led
    split at led
    case h_1 => cases led
    case h_2 => cases led
    case h_3 entries found =>
      split at led
      case isTrue idle => exact ⟨entries, here, found, .stay idle, led⟩
      case isFalse moving =>
        split at led
        case isTrue above =>
          subst above
          exact ⟨entries, here.tail, found, .rise, led⟩
        case isFalse below =>
          split at led
          case isTrue held =>
            exact ⟨entries, part :: here, found, .enter ⟨moving, below⟩ held, led⟩
          case isFalse => cases led
  · rintro ⟨entries, next, found, leads, led⟩
    rw [follow_cons found leads, led]

theorem follow_append (led : follow root here ps = .ok there) (more : List String) :
    follow root here (ps ++ more) = follow root there more := by
  induction ps generalizing here with
  | nil =>
      cases led
      rfl
  | cons part ps ih =>
      obtain ⟨entries, next, found, leads, led⟩ := follow_cons_eq_ok.mp led
      rw [← ih led]
      exact follow_cons found leads _

/-- What keeps the folders keeps the ways through them. -/
theorem follow_of_keeps (keeps : root.Keeps new) (led : follow root here ps = .ok there) :
    follow new here ps = .ok there := by
  induction ps generalizing here with
  | nil => exact led
  | cons part ps ih =>
      obtain ⟨entries, next, found, leads, led⟩ := follow_cons_eq_ok.mp led
      obtain ⟨more, found', kept⟩ := keeps here.reverse entries found
      refine follow_cons_eq_ok.mpr ⟨more, next, found', ?_, ih led⟩
      cases leads with
      | stay idle => exact .stay idle
      | rise => exact .rise
      | enter named held => exact .enter named (kept part held)

/-- A path leads to something. -/
theorem exists_of_follow (led : follow root here ps = .ok there) (some : ps ≠ []) :
    ∃ node, root.find? there.reverse = .some node := by
  induction ps generalizing here with
  | nil => cases some rfl
  | cons part ps ih =>
      obtain ⟨entries, next, found, leads, led⟩ := follow_cons_eq_ok.mp led
      cases ps with
      | cons => exact ih led nofun
      | nil =>
          cases led
          cases leads with
          | stay => exact ⟨_, found⟩
          | rise =>
              cases here with
              | nil => exact ⟨_, found⟩
              | cons name above =>
                  rw [List.reverse_cons, find?_append] at found
                  obtain ⟨node, found, -⟩ := Option.bind_eq_some_iff.mp found
                  exact ⟨node, found⟩
          | enter named held =>
              obtain ⟨node, held⟩ := Option.isSome_iff_exists.mp held
              exact ⟨node, by simp [find?_append, found, held]⟩

/-- Only an ordinary name leads nowhere in a folder, and only if there is no such entry. -/
theorem vacant_of_follow {part : String} {fault : OsFault}
    (found : root.find? here.reverse = some (.folder entries))
    (lost : follow root here [part] = .error fault) :
    (¬(part = "" ∨ part = ".") ∧ part ≠ "..") ∧ entries.lookup part = none := by
  simp only [follow, found] at lost
  split at lost
  case isTrue => cases lost
  case isFalse moving =>
    split at lost
    case isTrue => cases lost
    case isFalse below =>
      split at lost
      case isTrue => cases lost
      case isFalse vacant => exact ⟨⟨moving, below⟩, Option.not_isSome_iff_eq_none.mp vacant⟩

/-- Where relative or absolute paths begin, as `follow` needs it. -/
def origin (w : World) (absolute : Bool) : List String :=
  if absolute then [] else w.working.reverse

theorem locateParts_eq_ok {absolute : Bool} {names : List String} :
    w.locateParts absolute ps = .ok names ↔
      follow w.root (w.origin absolute) ps = .ok names.reverse := by
  rw [locateParts, ← origin]
  cases follow w.root (w.origin absolute) ps with
  | error fault => simp [Except.map]
  | ok there => simp [Except.map, List.reverse_eq_iff]

theorem locateParts_eq_error {absolute : Bool} :
    w.locateParts absolute ps = .error fault ↔
      follow w.root (w.origin absolute) ps = .error fault := by
  rw [locateParts, ← origin]
  cases follow w.root (w.origin absolute) ps <;> simp [Except.map]

theorem read_eq_ok :
    w.read path = .ok content ↔
      ∃ names, w.locate path = .ok names ∧ w.root.find? names = some (.file content) := by
  rw [read, Except.bind_eq_ok]
  refine exists_congr fun names => and_congr_right fun _ => ?_
  split
  case h_1 found => simp [found, pure, Except.pure]
  case h_2 found => simp [found, throw, throwThe, MonadExceptOf.throw]
  case h_3 found => simp [found, throw, throwThe, MonadExceptOf.throw]

theorem splitOnAux_ne_nil (text separator : String) (start i j : String.Pos.Raw)
    (before : List String) : text.splitOnAux separator start i j before ≠ [] := by
  fun_induction String.splitOnAux text separator start i j before with
  | case1 => simp
  | case2 => assumption
  | case3 => assumption
  | case4 => assumption

theorem parts_ne_nil (path : String) : parts path ≠ [] := by
  simpa [parts, String.splitOn] using splitOnAux_ne_nil path "/" 0 0 0 []

theorem parts_empty : parts "" = [""] := by
  have ended : String.Pos.Raw.atEnd "" 0 = true := rfl
  rw [parts, String.splitOn, if_neg (by decide), String.splitOnAux, if_pos ended]
  rfl

theorem locate_eq_locateParts (some : path ≠ "") :
    w.locate path = w.locateParts (path.startsWith "/") (parts path) :=
  if_neg some

theorem ne_empty_of_locate (located : w.locate path = .ok names) : path ≠ "" := by
  rintro rfl
  cases located

/-- What is written in the place of something else. -/
theorem find?_of_replaced (located : w.locate path = .ok names)
    (free : ∀ entries, w.root.find? names ≠ some (.folder entries)) (new : Node) :
    let written := { w with root := Node.set new names w.root }
    written.locate path = .ok names ∧ written.root.find? names = some new := by
  intro written
  have named := ne_empty_of_locate located
  rw [locate_eq_locateParts named] at located ⊢
  have led := locateParts_eq_ok.mp located
  obtain ⟨old, found⟩ := exists_of_follow led (parts_ne_nil path)
  rw [List.reverse_reverse] at found
  exact ⟨locateParts_eq_ok.mpr (follow_of_keeps (keeps_set free new) led), find?_set found new⟩

theorem put_eq_ok {absolute : Bool} {name : String} :
    w.put absolute ps name new = .ok w' ↔
      ∃ names, w.locateParts absolute ps = .ok names ∧
        ∃ entries, w.root.find? names = some (.folder entries) ∧
          w' = { w with root := Node.set new (names ++ [name]) w.root } := by
  rw [put, Except.bind_eq_ok]
  refine exists_congr fun names => and_congr_right fun _ => ?_
  split
  case h_1 found => simp [found, pure, Except.pure, eq_comm]
  case h_2 found => simp [found, throw, throwThe, MonadExceptOf.throw]
  case h_3 found => simp [found, throw, throwThe, MonadExceptOf.throw]

/-- What is put into a folder that has no such entry yet. -/
theorem find?_of_put {absolute : Bool} {name : String}
    (lost : w.locateParts absolute (ps ++ [name]) = .error fault)
    (done : w.put absolute ps name (.file content) = .ok w') :
    ∃ names, w'.locateParts absolute (ps ++ [name]) = .ok names ∧
      w'.root.find? names = some (.file content) := by
  obtain ⟨names, located, entries, found, rfl⟩ := put_eq_ok.mp done
  have led := locateParts_eq_ok.mp located
  have missing : follow w.root names.reverse [name] = .error fault := by
    rwa [locateParts_eq_error, follow_append led] at lost
  rw [← List.reverse_reverse names] at found
  obtain ⟨named, vacant⟩ := vacant_of_follow found missing
  rw [List.reverse_reverse] at found
  have free : ∀ entries, w.root.find? (names ++ [name]) ≠ some (.folder entries) := by
    simp [find?_append, found, vacant]
  obtain ⟨more, found', listed⟩ := find?_set_entry found name (.file content)
  refine ⟨names ++ [name], ?_, ?_⟩
  · have led' := follow_of_keeps (keeps_set free (.file content)) led
    have entered : Leads more names.reverse name (name :: names.reverse) :=
      .enter named (by simp [listed])
    rw [locateParts_eq_ok, List.reverse_append]
    exact (follow_append led' [name]).trans (follow_cons (by simpa using found') entered [])
  · simp [find?_append, found', listed]

/-- A file that has been written holds what was written. -/
theorem read_write (written : w.write path content = .ok w') : w'.read path = .ok content := by
  rw [read_eq_ok]
  rw [write] at written
  split at written
  case h_1 names located =>
    split at written
    case h_1 => cases written
    case h_2 free =>
      cases written
      exact ⟨names, find?_of_replaced located free _⟩
  case h_2 lost =>
    split at written
    case h_1 => cases written
    case h_2 => cases written
    case h_3 name above reversed named =>
      have split : parts path = above.reverse ++ [name] := by
        rw [← List.reverse_reverse (parts path), named, List.reverse_cons]
      have some : path ≠ "" := by
        rintro rfl
        rw [parts_empty] at named
        cases named
        exact reversed rfl
      rw [locate_eq_locateParts some, split] at lost ⊢
      exact find?_of_put lost written
  case h_3 => cases written

end World
end Files
end GoSchema
