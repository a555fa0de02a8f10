import GoSchema.Proofs.Schema.Keys
import GoSchema.Proofs.Schema.Mentions
import GoSchema.Proofs.Schema.SlotSemantics
import Mathlib.Data.List.Sort

/-! # Numbers of declarations

Declarations are numbered from 1 without gaps, and a name always refers to a struct. Both are read
off the events of the walk. At every moment the draft holds what has been recorded, and the numbers
below the counter are those that have been given; in the end whatever is met has been recorded, so
the numbers of the declarations are those below the last counter.
-/

namespace GoSchema

/-! ## What the past says about a state -/

/-- What is recorded under a number once something is. -/
def Entry.ofContributions? : List (List Field) → Option Entry
  | [] => none
  | contributions => some (.struct contributions)

theorem Entry.ofContributions?_concat (contributions : List (List Field)) (own : List Field) :
    ofContributions? (contributions ++ [own]) =
      some (((ofContributions? contributions).getD (.struct [])).contribute own) := by
  cases contributions <;> rfl

namespace Walk

variable {mode : Mode} {past : List Event} {w w' : Walk} {e : Event}

/-- The draft holds what has been recorded, and nothing else. -/
structure Holds (past : List Event) (w : Walk) : Prop where
  ascending : w.draft.Ascending
  entries : ∀ id, w.draft.lookup id = Entry.ofContributions? (past.filterMap (Event.fieldsFor? id))

theorem start_holds : Holds [] start :=
  ⟨Draft.ascending_nil, fun _ => rfl⟩

theorem Step.holds (step : Step mode w e w') (holds : Holds past w) : Holds (past ++ [e]) w' := by
  cases step with
  | number slot =>
      have same (id : TypeId) : (past ++ [Event.number slot (w.objectId mode slot).1]).filterMap
          (Event.fieldsFor? id) = past.filterMap (Event.fieldsFor? id) := by
        rw [List.filterMap_append, List.filterMap_cons_none rfl, List.filterMap_nil,
          List.append_nil]
      refine ⟨by rw [draft_objectId]; exact holds.ascending, fun id => ?_⟩
      rw [draft_objectId, same, holds.entries id]
  | contribute id fields =>
      refine ⟨holds.ascending.update, fun j => ?_⟩
      rw [Walk.contribute, Draft.lookup_contribute holds.ascending, List.filterMap_append,
        holds.entries, holds.entries]
      by_cases same : j = id
      · subst same
        have own : [Event.contribute j fields].filterMap (Event.fieldsFor? j) = [fields] := by
          simp [Event.fieldsFor?]
        rw [if_pos rfl, own, Entry.ofContributions?_concat]
      · have none : [Event.contribute id fields].filterMap (Event.fieldsFor? j) = [] := by
          simp [Event.fieldsFor?, Ne.symm same]
        rw [if_neg same, none, List.append_nil]

/-- Nothing but structs is ever held. -/
theorem Holds.not_plain (holds : Holds past w) (id : TypeId) (shape : Shape) :
    w.draft.lookup id ≠ some (.plain shape) := by
  rw [holds.entries]
  cases past.filterMap (Event.fieldsFor? id) <;> simp [Entry.ofContributions?]

theorem Holds.exists_iff (holds : Holds past w) (id : TypeId) :
    (∃ e, w.draft.lookup id = some e) ↔ Left id past := by
  have recorded : Left id past ↔ past.filterMap (Event.fieldsFor? id) ≠ [] := by
    simp only [Left, ← Event.mem_filterMap_fieldsFor?, ne_eq, List.eq_nil_iff_forall_not_mem,
      not_forall, not_not]
  rw [recorded, holds.entries]
  cases past.filterMap (Event.fieldsFor? id) <;> simp [Entry.ofContributions?]

/-- What is found under a number was recorded under it. -/
theorem Holds.exists_contributions (holds : Holds past w) {id : TypeId} {e : Entry}
    (found : w.draft.lookup id = some e) : ∃ contributions, e = .struct contributions ∧
      ∀ own ∈ contributions, .contribute id own ∈ past := by
  rw [holds.entries] at found
  cases known : past.filterMap (Event.fieldsFor? id) with
  | nil =>
      rw [known] at found
      cases found
  | cons first others =>
      rw [known] at found
      cases found
      refine ⟨_, rfl, fun own member => ?_⟩
      rw [← known] at member
      exact Event.mem_filterMap_fieldsFor?.mp member

/-- The root has its number from the start, and an object that is met gets one. -/
def Given (past : List Event) (slot : Slot) (id : TypeId) : Prop :=
  slot = Slot.root ∧ id = TypeId.root ∨ .number slot id ∈ past

/-- The numbers below the counter have been given, each to one slot alone. -/
structure Numbers (past : List Event) (w : Walk) : Prop where
  unique : ∀ slot other id, Given past slot id → Given past other id → slot = other
  all : ∀ id, (∃ slot, Given past slot id) ↔ TypeId.root ≤ id ∧ id < w.next
  known : ∀ slot id, w.ids.lookup slot = some id → Given past slot id
  count : w.next ≤ (past.filterMap Event.slot?).length + 2

theorem start_numbers : Numbers [] start where
  unique slot other id given given' := by
    simp only [Given, List.not_mem_nil, or_false] at given given'
    rw [given.1, given'.1]
  all id := by
    have root : (∃ slot, Given [] slot id) ↔ id = TypeId.root := by simp [Given]
    have next : start.next = TypeId.root + 1 := rfl
    rw [root, next, Nat.lt_succ_iff]
    exact ⟨fun same => ⟨same.ge, same.le⟩, fun bounds => Nat.le_antisymm bounds.2 bounds.1⟩
  known slot id found := by
    rw [lookup_start] at found
    split at found
    · next root => exact .inl ⟨root, (Option.some.inj found).symm⟩
    · cases found
  count := Nat.le_refl 2

theorem Numbers.root_lt (numbers : Numbers past w) : TypeId.root < w.next :=
  ((numbers.all TypeId.root).mp ⟨Slot.root, .inl ⟨rfl, rfl⟩⟩).2

/-- The number of an object has been given to its slot before, or it is the next unused one. -/
theorem Numbers.objectId (numbers : Numbers past w) (mode : Mode) (slot : Slot) :
    (Given past slot (w.objectId mode slot).1 ∧ (w.objectId mode slot).2 = w) ∨
      ((w.objectId mode slot).1 = w.next ∧ (w.objectId mode slot).2.next = w.next + 1 ∧
        ∀ other id, (w.objectId mode slot).2.ids.lookup other = some id →
          other = slot ∧ id = w.next ∨ w.ids.lookup other = some id) := by
  cases mode with
  | unified =>
      cases found : w.ids.lookup slot with
      | some id =>
          rw [objectId_known found]
          exact .inl ⟨numbers.known slot id found, rfl⟩
      | none =>
          rw [objectId_new found]
          refine .inr ⟨rfl, rfl, fun other id known => ?_⟩
          by_cases same : other = slot
          · subst same
            rw [List.lookup_cons_self] at known
            exact .inl ⟨rfl, (Option.some.inj known).symm⟩
          · rw [lookup_cons_of_ne _ _ same] at known
            exact .inr known
  | separate =>
      by_cases root : slot = Slot.root
      · subst root
        exact .inl ⟨.inl ⟨rfl, rfl⟩, rfl⟩
      · rw [objectId_separate root]
        exact .inr ⟨rfl, rfl, fun other id known => .inr known⟩

theorem given_concat {slot other : Slot} {id i : TypeId} :
    Given (past ++ [.number slot id]) other i ↔
      Given past other i ∨ other = slot ∧ i = id := by
  simp [Given, or_assoc]

theorem Numbers.number (numbers : Numbers past w) (mode : Mode) (slot : Slot) :
    Numbers (past ++ [.number slot (w.objectId mode slot).1]) (w.objectId mode slot).2 := by
  have length (id : TypeId) : ((past ++ [Event.number slot id]).filterMap Event.slot?).length =
      (past.filterMap Event.slot?).length + 1 := by
    rw [List.filterMap_append, List.length_append]
    rfl
  rcases numbers.objectId mode slot with ⟨given, same⟩ | ⟨id, next, ids⟩
  · -- the number is not new, so nothing more is given
    have before (other : Slot) (i : TypeId) :
        Given (past ++ [.number slot (w.objectId mode slot).1]) other i ↔ Given past other i := by
      rw [given_concat]
      refine or_iff_left_of_imp ?_
      rintro ⟨rfl, rfl⟩
      exact given
    refine ⟨?_, ?_, ?_, ?_⟩
    · simpa only [before] using numbers.unique
    · simpa only [before, same] using numbers.all
    · simpa only [before, same] using numbers.known
    · rw [length, same]
      exact Nat.le_succ_of_le numbers.count
  · rw [id]
    refine ⟨?_, ?_, ?_, ?_⟩
    · intro one other i given given'
      have old (slot : Slot) (given : Given past slot i) : i < w.next :=
        ((numbers.all i).mp ⟨slot, given⟩).2
      rw [given_concat] at given given'
      rcases given with given | ⟨rfl, rfl⟩
      · rcases given' with given' | ⟨-, rfl⟩
        · exact numbers.unique one other i given given'
        · exact absurd (old one given) (Nat.lt_irrefl _)
      · rcases given' with given' | ⟨rfl, -⟩
        · exact absurd (old other given') (Nat.lt_irrefl _)
        · rfl
    · intro i
      simp only [given_concat, exists_or, numbers.all, exists_and_right, exists_eq, true_and, next]
      rw [Nat.lt_succ_iff_lt_or_eq, and_or_left, or_congr_right]
      exact ⟨fun same => ⟨same ▸ Nat.le_of_lt numbers.root_lt, same⟩, And.right⟩
    · intro other i found
      rw [given_concat]
      exact (ids other i found).symm.imp_left (numbers.known other i)
    · rw [← id, length, next]
      exact Nat.succ_le_succ numbers.count

theorem Step.numbers (step : Step mode w e w') (numbers : Numbers past w) :
    Numbers (past ++ [e]) w' := by
  cases step with
  | number slot => exact numbers.number mode slot
  | contribute id fields =>
      have before (slot : Slot) (i : TypeId) :
          Given (past ++ [.contribute id fields]) slot i ↔ Given past slot i := by
        simp [Given]
      refine ⟨?_, ?_, ?_, ?_⟩
      · simpa only [before] using numbers.unique
      · simpa only [before, Walk.contribute] using numbers.all
      · simpa only [before, Walk.contribute] using numbers.known
      · rw [List.filterMap_append, List.filterMap_cons_none rfl, List.filterMap_nil,
          List.append_nil]
        exact numbers.count

end Walk

/-! ## The whole sample -/

namespace Sample

/-- The events of the walk through a whole sample. -/
def events (mode : Mode) (sample : Sample) : List Event :=
  Walk.events mode Slot.root sample Walk.start

/-- The state after the walk through a whole sample. -/
def walked (mode : Mode) (sample : Sample) : Walk :=
  (Walk.value mode Slot.root sample Walk.start).2

/-- The walk through a sample passes a state right before an event. -/
def Passes (mode : Mode) (sample : Sample) (w : Walk) (e : Event) : Prop :=
  ∃ front rest, sample.events mode = front ++ e :: rest ∧ Walk.Run mode Walk.start front w ∧
    Walk.Run mode w (e :: rest) (sample.walked mode)

section

variable (mode : Mode) (sample : Sample)

theorem run_events : Walk.Run mode Walk.start (sample.events mode) (sample.walked mode) :=
  Walk.value_run mode Slot.root sample Walk.start

theorem exists_passes {e : Event} (member : e ∈ sample.events mode) :
    ∃ w, sample.Passes mode w e := by
  obtain ⟨front, rest, split⟩ := List.append_of_mem member
  have run := sample.run_events mode
  rw [split] at run
  obtain ⟨w, before, after⟩ := run.split
  exact ⟨w, front, rest, split, before, after⟩

theorem events_holds : Walk.Holds (sample.events mode) (sample.walked mode) :=
  (sample.run_events mode).invariant (fun _ _ _ _ holds step => step.holds holds) Walk.start_holds

theorem events_numbers : Walk.Numbers (sample.events mode) (sample.walked mode) :=
  (sample.run_events mode).invariant (fun _ _ _ _ numbers step => step.numbers numbers)
    Walk.start_numbers

theorem events_settled : Settled (sample.events mode) :=
  (Walk.value_settled mode Slot.root sample Walk.start).1

theorem filterMap_slot?_events :
    (sample.events mode).filterMap Event.slot? = sample.objectSlots Slot.root :=
  Walk.filterMap_slot?_events mode Slot.root sample Walk.start

/-- Only an object is ever met under the number of the root. -/
theorem met_root : Met TypeId.root (sample.events mode) ↔ sample.members? ≠ none := by
  constructor
  · intro met plain
    obtain ⟨slot, given⟩ := met
    obtain rfl : slot = Slot.root :=
      (sample.events_numbers mode).unique _ _ TypeId.root (.inr given) (.inl ⟨rfl, rfl⟩)
    have inside : Slot.root ∈ sample.objectSlots Slot.root := by
      rw [← filterMap_slot?_events mode]
      exact List.mem_filterMap.mpr ⟨_, given, rfl⟩
    obtain ⟨visit, visited, root⟩ := List.mem_map.mp ((mem_objectSlots _ _ _).mp inside)
    have object := objectsAt_of_visited visited
    rw [root, objectsAt_root, plain] at object
    exact object rfl
  · intro object
    cases sample with
    | object ms =>
        have first : .number Slot.root TypeId.root ∈ (Sample.object ms).events mode := by
          rw [events, Walk.events, Walk.objectId_root]
          exact List.mem_cons_self
        exact ⟨Slot.root, first⟩
    | null | bool | number | string | array => exact absurd rfl object

/-- The draft is what the walk leaves, with a plain body for a root that is no object. -/
theorem lookup_draft (id : TypeId) :
    List.lookup id (sample.draft mode) =
      if id = TypeId.root ∧ sample.members? = none
      then some (.plain (plainBody (Walk.value mode Slot.root sample Walk.start).1))
      else (sample.walked mode).draft.lookup id := by
  cases object : sample.members? with
  | none =>
      have ascending := (sample.events_holds mode).ascending
      rw [draft_of_plain object, Draft.declare, ← walked, Draft.lookup_update ascending]
      simp only [and_true]
  | some ms =>
      obtain rfl := eq_object_of_members? object
      have some : ¬(id = TypeId.root ∧ Option.some ms = none) :=
        fun given => Option.some_ne_none ms given.2
      rw [if_neg some, draft_of_object, walked]

theorem ascending_draft : (sample.draft mode).Ascending := by
  have ascending := (sample.events_holds mode).ascending
  cases object : sample.members? with
  | none =>
      rw [draft_of_plain object]
      exact ascending.update
  | some ms =>
      obtain rfl := eq_object_of_members? object
      rw [draft_of_object]
      exact ascending

/-- Exactly the numbers below the counter have an entry. -/
theorem exists_lookup_draft (id : TypeId) :
    (∃ e, List.lookup id (sample.draft mode) = some e) ↔
      TypeId.root ≤ id ∧ id < (sample.walked mode).next := by
  rw [← (sample.events_numbers mode).all, lookup_draft]
  split
  · next root => exact ⟨fun _ => ⟨Slot.root, .inl ⟨rfl, root.1⟩⟩, fun _ => ⟨_, rfl⟩⟩
  · next other =>
      rw [(sample.events_holds mode).exists_iff, ← (sample.events_settled mode).left]
      constructor
      · intro met
        exact met.imp fun _ given => .inr given
      · intro given
        obtain ⟨slot, ⟨-, rfl⟩ | given⟩ := given
        · exact (met_root mode sample).mpr fun plain => other ⟨rfl, plain⟩
        · exact ⟨slot, given⟩

/-- Objects that are met become structs. -/
theorem exists_struct_of_met {id : TypeId} (met : Met id (sample.events mode)) :
    ∃ contributions, List.lookup id (sample.draft mode) = some (.struct contributions) := by
  have object : ¬(id = TypeId.root ∧ sample.members? = none) := by
    rintro ⟨rfl, plain⟩
    exact (met_root mode sample).mp met plain
  have holds := sample.events_holds mode
  obtain ⟨e, found⟩ := (holds.exists_iff id).mpr (((sample.events_settled mode).left id).mp met)
  obtain ⟨contributions, rfl, -⟩ := holds.exists_contributions found
  exact ⟨contributions, by rw [lookup_draft, if_neg object, found]⟩

/-- An entry is a struct of what has been recorded, or it is the root that is no object. -/
theorem lookup_draft_cases {id : TypeId} {e : Entry}
    (found : List.lookup id (sample.draft mode) = some e) :
    id = TypeId.root ∧ e = .plain (plainBody (Walk.value mode Slot.root sample Walk.start).1) ∨
      ∃ contributions, e = .struct contributions ∧
        ∀ own ∈ contributions, .contribute id own ∈ sample.events mode := by
  rw [lookup_draft] at found
  split at found
  · next root => exact .inl ⟨root.1, (Option.some.inj found).symm⟩
  · exact .inr ((sample.events_holds mode).exists_contributions found)

theorem mentions_of_plainBody {id : TypeId} {type : Ty}
    (mentions : (plainBody type).Mentions id) : type.Mentions id := by
  cases type with
  | scalar => exact mentions
  | any | named | seq => exact mentions

/-- Whatever is mentioned has been met. -/
theorem met_of_mentions {i id : TypeId} {e : Entry}
    (found : List.lookup i (sample.draft mode) = some e) (mentions : e.shape.Mentions id) :
    Met id (sample.events mode) := by
  obtain ⟨settled, typed⟩ := Walk.value_settled mode Slot.root sample Walk.start
  rcases sample.lookup_draft_cases mode found with ⟨-, rfl⟩ | ⟨contributions, rfl, recorded⟩
  · exact typed id (mentions_of_plainBody mentions)
  · obtain ⟨field, merged, inside⟩ := mentions
    obtain ⟨own, member, f, present, mentioned⟩ := exists_mentions_of_mergeFields merged inside
    exact settled.mentioned i own (recorded own member) f present id mentioned

theorem mem_decls {decl : Decl} : decl ∈ sample.decls mode ↔
    ∃ e, List.lookup decl.id (sample.draft mode) = some e ∧ e.shape = decl.shape := by
  obtain ⟨id, shape⟩ := decl
  simp only [decls, Draft.decls, List.mem_map, Prod.exists,
    Draft.mem_iff_lookup (sample.ascending_draft mode), Decl.mk.injEq]
  constructor
  · intro given
    obtain ⟨i, e, found, rfl, same⟩ := given
    exact ⟨e, found, same⟩
  · intro given
    obtain ⟨e, found, same⟩ := given
    exact ⟨id, e, found, rfl, same⟩

theorem map_id_decls : (sample.decls mode).map (·.id) =
    List.range' TypeId.root ((sample.walked mode).next - TypeId.root) := by
  have ascending : ((sample.decls mode).map (·.id)).Pairwise (· < ·) := by
    rw [decls, Draft.decls, List.map_map, List.pairwise_map]
    exact sample.ascending_draft mode
  refine ascending.eq_of_mem_iff (List.pairwise_lt_range' _ Nat.one_pos) fun id => ?_
  have declared : id ∈ (sample.decls mode).map (·.id) ↔
      ∃ e, List.lookup id (sample.draft mode) = some e := by
    simp only [List.mem_map, mem_decls]
    constructor
    · intro given
      obtain ⟨decl, ⟨e, found, -⟩, rfl⟩ := given
      exact ⟨e, found⟩
    · intro given
      obtain ⟨e, found⟩ := given
      exact ⟨⟨id, e.shape⟩, ⟨e, found, rfl⟩, rfl⟩
  have root : TypeId.root ≤ (sample.walked mode).next :=
    Nat.le_of_lt (sample.events_numbers mode).root_lt
  rw [declared, exists_lookup_draft, List.mem_range'_1, Nat.add_sub_cancel' root]

theorem length_decls : (sample.decls mode).length + 1 = (sample.walked mode).next := by
  have lengths := congrArg List.length (sample.map_id_decls mode)
  rw [List.length_map, List.length_range'] at lengths
  rw [lengths]
  exact Nat.sub_add_cancel (Nat.le_of_lt (sample.events_numbers mode).root_lt)

theorem names_decls {decl : Decl} (member : decl ∈ sample.decls mode) {id : TypeId}
    (mentions : decl.shape.Mentions id) : ∃ fields, ⟨id, .struct fields⟩ ∈ sample.decls mode := by
  obtain ⟨e, found, same⟩ := (sample.mem_decls mode).mp member
  have met := sample.met_of_mentions mode found (same ▸ mentions)
  obtain ⟨contributions, recorded⟩ := sample.exists_struct_of_met mode met
  exact ⟨mergeFields contributions, (sample.mem_decls mode).mpr ⟨_, recorded, rfl⟩⟩

theorem fields_plainBody (type : Ty) : (plainBody type).fields = [] := by
  cases type <;> rfl

theorem shape_of_mem_decls {decl : Decl} (member : decl ∈ sample.decls mode) :
    decl.id = TypeId.root ∧ decl.shape.fields = [] ∨
      ∃ contributions, decl.shape = .struct (mergeFields contributions) := by
  obtain ⟨e, found, same⟩ := (sample.mem_decls mode).mp member
  rw [← same]
  rcases sample.lookup_draft_cases mode found with ⟨root, rfl⟩ | ⟨contributions, rfl, -⟩
  · exact .inl ⟨root, fields_plainBody _⟩
  · exact .inr ⟨contributions, rfl⟩

variable {mode sample} in
theorem Passes.not_plain {w : Walk} {e : Event} (passes : sample.Passes mode w e) (id : TypeId)
    (shape : Shape) : w.draft.lookup id ≠ some (.plain shape) := by
  obtain ⟨front, rest, -, run, -⟩ := passes
  have holds : Walk.Holds front w :=
    run.invariant (fun _ _ _ _ holds step => step.holds holds) Walk.start_holds
  exact holds.not_plain id shape

/-- What holds of the numbers of a sample and of the walk that gives them. -/
structure Numbered : Prop where
  /-- The declarations are numbered from 1 without gaps. -/
  ids : (sample.decls mode).map (·.id) = List.range' 1 (sample.decls mode).length
  /-- The root is always declared. -/
  nonempty : sample.decls mode ≠ []
  /-- The counter stands after the last declaration. -/
  counter : (sample.walked mode).next = (sample.decls mode).length + 1
  /-- There are no more declarations than objects, the root apart, so the counter stays below `2^32`
  when there are fewer than `2^32 - 3` objects. -/
  count : (sample.decls mode).length ≤ (sample.objectSlots Slot.root).length + 1
  /-- A name refers to a struct. -/
  names : ∀ decl ∈ sample.decls mode, ∀ id, decl.shape.Mentions id →
    ∃ fields, ⟨id, .struct fields⟩ ∈ sample.decls mode
  /-- Everything but the root is a struct. -/
  structs : ∀ decl ∈ sample.decls mode, decl.id ≠ TypeId.root →
    ∃ fields, decl.shape = .struct fields
  /-- No struct has two fields with one key. -/
  keys : ∀ decl ∈ sample.decls mode, (decl.shape.fields.map (·.key)).Nodup
  /-- The events lead from the first state of the walk to its last, with a state before each. -/
  run : Walk.Run mode Walk.start (sample.events mode) (sample.walked mode) ∧
    ∀ e ∈ sample.events mode, ∃ w, sample.Passes mode w e
  /-- Fields are never recorded under a number with a plain body. -/
  records : ∀ w id fields, sample.Passes mode w (.contribute id fields) →
    ∀ shape, w.draft.lookup id ≠ some (.plain shape)
  /-- No number is given to two slots. -/
  owner : ∀ slot other id, Walk.Given (sample.events mode) slot id →
    Walk.Given (sample.events mode) other id → slot = other

/-- The invariants of numbers hold in both modes, whatever the sample is. -/
theorem numbered : sample.Numbered mode where
  ids := by
    rw [map_id_decls, ← length_decls]
    rfl
  nonempty := by
    intro none
    have next := sample.length_decls mode
    rw [none] at next
    exact Nat.ne_of_lt (sample.events_numbers mode).root_lt next
  counter := (sample.length_decls mode).symm
  count := by
    have count := (sample.events_numbers mode).count
    rw [filterMap_slot?_events, ← length_decls] at count
    exact Nat.le_of_succ_le_succ count
  names decl member id mentions := sample.names_decls mode member mentions
  structs decl member other := by
    rcases sample.shape_of_mem_decls mode member with ⟨root, -⟩ | ⟨contributions, struct⟩
    · exact absurd root other
    · exact ⟨_, struct⟩
  keys decl member := by
    rcases sample.shape_of_mem_decls mode member with ⟨-, empty⟩ | ⟨contributions, struct⟩
    · rw [empty]
      exact .nil
    · rw [struct]
      exact nodup_mergeFields_keys contributions
  run := ⟨sample.run_events mode, fun _ member => sample.exists_passes mode member⟩
  records w id fields passes := passes.not_plain id
  owner := (sample.events_numbers mode).unique

end

end Sample
end GoSchema
