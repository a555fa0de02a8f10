import GoSchema.Proofs.Schema.Numbering
import GoSchema.Proofs.Schema.Shift

/-! # Members of an object

What is declared for a member does not depend on the members before it, apart from the first number
that is free: a walk through the member does at its slot what a walk through the same value does at
the root of a document, with shifted numbers and behind the entries that are there.
-/

namespace GoSchema

theorem Slot.element_ne_root (slot : Slot) : slot.element ≠ root :=
  List.cons_ne_nil _ _

theorem Slot.member_ne_root (slot : Slot) (key : String) : slot.member key ≠ root :=
  List.cons_ne_nil _ _

theorem Slot.append_element (slot base : Slot) : (slot ++ base).element = slot.element ++ base :=
  rfl

theorem Slot.append_member (slot base : Slot) (key : String) :
    (slot ++ base).member key = slot.member key ++ base :=
  rfl

namespace Walk

/-! ## A walk that follows another -/

/-- A state `w` stands at the slots below `base` as `u` stands below the root, with numbers greater
by `offset`, and with the entries `before` in front. -/
structure Follows (offset : Nat) (base : Slot) (before : Draft) (u w : Walk) : Prop where
  next : w.next = u.next + offset
  draft : w.draft = before ++ u.draft.shift offset
  ids : ∀ slot ≠ Slot.root, w.ids.lookup (slot ++ base) = (u.ids.lookup slot).map (· + offset)
  /-- Below the root no numbers are given but greater ones. -/
  root_lt_next : TypeId.root < u.next
  root_lt : ∀ slot ≠ Slot.root, ∀ id, u.ids.lookup slot = some id → TypeId.root < id
  earlier : ∀ entry ∈ before, entry.1 ≤ TypeId.root + offset

section

variable {offset : Nat} {base : Slot} {before : Draft} {u w : Walk}

theorem Follows.objectId (follows : Follows offset base before u w) (mode : Mode) {slot : Slot}
    (below : slot ≠ Slot.root) :
    (w.objectId mode (slot ++ base)).1 = (u.objectId mode slot).1 + offset ∧
      TypeId.root < (u.objectId mode slot).1 ∧
      Follows offset base before (u.objectId mode slot).2 (w.objectId mode (slot ++ base)).2 := by
  cases mode with
  | unified =>
      have known := follows.ids slot below
      cases found : u.ids.lookup slot with
      | some id =>
          rw [found] at known
          rw [objectId_known found, objectId_known known]
          exact ⟨rfl, follows.root_lt slot below id found, follows⟩
      | none =>
          rw [found] at known
          rw [objectId_new found, objectId_new known]
          refine ⟨follows.next, follows.root_lt_next, ?_, follows.draft, ?_,
            Nat.lt_succ_of_lt follows.root_lt_next, ?_, follows.earlier⟩
          · exact (congrArg (· + 1) follows.next).trans (Nat.add_right_comm _ _ _)
          · intro other notRoot
            by_cases same : other = slot
            · rw [same, List.lookup_cons_self, List.lookup_cons_self, follows.next]
              rfl
            · have different : other ++ base ≠ slot ++ base :=
                fun equal => same (List.append_cancel_right equal)
              rw [lookup_cons_of_ne _ _ same, lookup_cons_of_ne _ _ different]
              exact follows.ids other notRoot
          · intro other notRoot id given
            by_cases same : other = slot
            · rw [same, List.lookup_cons_self] at given
              exact Option.some.inj given ▸ follows.root_lt_next
            · rw [lookup_cons_of_ne _ _ same] at given
              exact follows.root_lt other notRoot id given
  | separate =>
      have inside : slot ++ base ≠ Slot.root := List.append_ne_nil_of_left_ne_nil below base
      rw [objectId_separate below, objectId_separate inside]
      refine ⟨follows.next, follows.root_lt_next, ?_, follows.draft, follows.ids,
        Nat.lt_succ_of_lt follows.root_lt_next, follows.root_lt, follows.earlier⟩
      exact (congrArg (· + 1) follows.next).trans (Nat.add_right_comm _ _ _)

theorem Follows.contribute (follows : Follows offset base before u w) {id : TypeId}
    (later : ∀ entry ∈ before, entry.1 < id + offset) (own : List Field) :
    Follows offset base before (u.contribute id own)
      (w.contribute (id + offset) (own.map (Field.shift offset))) :=
  { follows with
    draft := by
      rw [Walk.contribute, follows.draft, Draft.contribute_append_shift later]
      rfl }

theorem Follows.decls (follows : Follows offset base before u w) :
    w.draft.decls = before.decls ++ u.draft.decls.map (Decl.shift offset) := by
  rw [follows.draft, ← Draft.decls_shift]
  exact List.map_append

end

mutual
theorem value_follows (mode : Mode) {slot : Slot} (below : slot ≠ Slot.root) (sample : Sample)
    {offset : Nat} {base : Slot} {before : Draft} {u w : Walk}
    (follows : Follows offset base before u w) :
    (value mode (slot ++ base) sample w).1 = (value mode slot sample u).1.shift offset ∧
      Follows offset base before (value mode slot sample u).2
        (value mode (slot ++ base) sample w).2 := by
  cases sample with
  | null | bool | number | string =>
      simp only [value]
      exact ⟨rfl, follows⟩
  | array items =>
      obtain ⟨types, after⟩ := elements_follows mode slot.element_ne_root items follows
      rw [value_array, value_array, slot.append_element, types, Ty.unifyAll_shift]
      exact ⟨rfl, after⟩
  | object ms =>
      rw [value_object, value_object]
      obtain ⟨id, root_lt, identified⟩ := follows.objectId mode below
      obtain ⟨fields, after⟩ := members_follows mode slot ms identified
      have later : ∀ entry ∈ before, entry.1 < (u.objectId mode slot).1 + offset :=
        fun entry member => Nat.lt_of_le_of_lt (follows.earlier entry member)
          (Nat.add_lt_add_right root_lt offset)
      rw [id, fields]
      exact ⟨rfl, after.contribute later _⟩
termination_by sizeOf sample

theorem elements_follows (mode : Mode) {slot : Slot} (below : slot ≠ Slot.root)
    (items : List Sample) {offset : Nat} {base : Slot} {before : Draft} {u w : Walk}
    (follows : Follows offset base before u w) :
    (elements mode (slot ++ base) items w).1 =
        (elements mode slot items u).1.map (Ty.shift offset) ∧
      Follows offset base before (elements mode slot items u).2
        (elements mode (slot ++ base) items w).2 := by
  cases items with
  | nil =>
      rw [elements, elements]
      exact ⟨rfl, follows⟩
  | cons item rest =>
      obtain ⟨type, first⟩ := value_follows mode below item follows
      obtain ⟨types, after⟩ := elements_follows mode below rest first
      rw [elements_cons, elements_cons, type, types]
      exact ⟨rfl, after⟩
termination_by sizeOf items

theorem members_follows (mode : Mode) (slot : Slot) (ms : List (String × Sample)) {offset : Nat}
    {base : Slot} {before : Draft} {u w : Walk} (follows : Follows offset base before u w) :
    (members mode (slot ++ base) ms w).1 =
        (members mode slot ms u).1.map (Field.shift offset) ∧
      Follows offset base before (members mode slot ms u).2
        (members mode (slot ++ base) ms w).2 := by
  match ms with
  | [] =>
      rw [members, members]
      exact ⟨rfl, follows⟩
  | (key, item) :: rest =>
      obtain ⟨type, first⟩ := value_follows mode (slot.member_ne_root key) item follows
      obtain ⟨fields, after⟩ := members_follows mode slot rest first
      rw [members_cons, members_cons, slot.append_member, type, fields]
      exact ⟨rfl, after⟩
termination_by sizeOf ms
end

/-! ## A value at a new slot -/

section

variable {offset : Nat} {base : Slot} {w : Walk}

theorem start_follows {before : Draft} (next : w.next = start.next + offset)
    (draft : w.draft = before) (unmet : ∀ slot ≠ Slot.root, w.ids.lookup (slot ++ base) = none)
    (earlier : ∀ entry ∈ before, entry.1 ≤ TypeId.root + offset) :
    Follows offset base before start w where
  next := next
  draft := by rw [draft]; exact (List.append_nil before).symm
  ids slot below := by rw [unmet slot below, lookup_start, if_neg below]; rfl
  root_lt_next := Nat.lt_succ_self _
  root_lt slot below id given := by
    rw [lookup_start, if_neg below] at given
    cases given
  earlier := earlier

/-- An object at a new slot gets the next number, which is the shifted number of the root. -/
theorem value_object_follows (mode : Mode) (ms : List (String × Sample)) (inner : base ≠ Slot.root)
    (unmet : ∀ slot, w.ids.lookup (slot ++ base) = none) (next : w.next = TypeId.root + offset)
    (earlier : ∀ entry ∈ w.draft, entry.1 < w.next) :
    (value mode base (.object ms) w).1 = .named w.next ∧
      Follows offset base w.draft ((Sample.object ms).walked mode)
        (value mode base (.object ms) w).2 := by
  have identified : (w.objectId mode base).1 = w.next ∧
      Follows offset base w.draft start (w.objectId mode base).2 := by
    have later : w.next + 1 = start.next + offset := by rw [next]; exact Nat.add_right_comm _ _ _
    have bound : ∀ entry ∈ w.draft, entry.1 ≤ TypeId.root + offset :=
      fun entry member => next ▸ Nat.le_of_lt (earlier entry member)
    cases mode with
    | unified =>
        have here : w.ids.lookup base = none := unmet Slot.root
        rw [objectId_new here]
        refine ⟨rfl, start_follows later rfl (fun slot below => ?_) bound⟩
        have different : slot ++ base ≠ base :=
          fun equal => below (List.append_left_eq_self.mp equal)
        rw [lookup_cons_of_ne _ _ different, unmet]
    | separate =>
        rw [objectId_separate inner]
        exact ⟨rfl, start_follows later rfl (fun slot _ => unmet slot) bound⟩
  obtain ⟨id, follows⟩ := identified
  obtain ⟨fields, after⟩ := members_follows mode Slot.root ms follows
  have recorded : ∀ entry ∈ w.draft, entry.1 < TypeId.root + offset := next ▸ earlier
  rw [Sample.walked, value_object, value_object, id, objectId_root, next]
  rw [show Slot.root ++ base = base from rfl] at fields after
  rw [fields]
  exact ⟨rfl, after.contribute recorded _⟩

/-- Any other value at a new slot leaves the first number to its first object. -/
theorem value_plain_follows (mode : Mode) {sample : Sample} (plain : sample.members? = none)
    (unmet : ∀ slot, w.ids.lookup (slot ++ base) = none) (next : w.next = start.next + offset)
    (earlier : ∀ entry ∈ w.draft, entry.1 < w.next) :
    (value mode base sample w).1 = (value mode Slot.root sample start).1.shift offset ∧
      Follows offset base w.draft (sample.walked mode) (value mode base sample w).2 := by
  have bound : ∀ entry ∈ w.draft, entry.1 ≤ TypeId.root + offset := by
    intro entry member
    have before := earlier entry member
    rw [next, show start.next = TypeId.root + 1 from rfl, Nat.add_right_comm] at before
    exact Nat.le_of_lt_succ before
  have follows : Follows offset base w.draft start w :=
    start_follows next rfl (fun slot _ => unmet slot) bound
  cases sample with
  | null | bool | number | string =>
      simp only [Sample.walked, value]
      exact ⟨rfl, follows⟩
  | array items =>
      obtain ⟨types, after⟩ := elements_follows mode Slot.root.element_ne_root items follows
      rw [show Slot.root.element ++ base = base.element from rfl] at types after
      rw [Sample.walked, value_array, value_array, types, Ty.unifyAll_shift]
      exact ⟨rfl, after⟩
  | object => cases plain

end

/-- A walk through one member meets nothing at another. -/
theorem lookup_other_member (mode : Mode) {key name : String} (different : key ≠ name)
    (item : Sample) (w : Walk) (slot : Slot) :
    (value mode (Slot.root.member key) item w).2.ids.lookup (slot ++ Slot.root.member name) =
      w.ids.lookup (slot ++ Slot.root.member name) := by
  refine lookup_value mode (fun met => ?_) w
  obtain ⟨visit, visited, same⟩ := List.mem_map.mp ((Sample.mem_objectSlots _ _ _).mp met)
  have under := Sample.suffix_of_mem_visits visited
  rw [same] at under
  exact different (Step.key.inj (Sample.step_eq_of_suffix under))

end Walk

namespace Sample

/-! ## A value on its own -/

section

variable (mode : Mode) (sample : Sample)

/-- The numbers that the walk through a sample records fields under. -/
theorem bounds_walked {entry : TypeId × Entry} (member : entry ∈ (sample.walked mode).draft) :
    TypeId.root ≤ entry.1 ∧ entry.1 < (sample.walked mode).next ∧
      (sample.members? = none → TypeId.root < entry.1) := by
  obtain ⟨id, e⟩ := entry
  have holds := sample.events_holds mode
  have found := (Draft.mem_iff_lookup holds.ascending).mp member
  have met := ((sample.events_settled mode).left id).mpr ((holds.exists_iff id).mp ⟨e, found⟩)
  obtain ⟨root_le, lt_next⟩ := ((sample.events_numbers mode).all id).mp
    (met.imp fun _ given => .inr given)
  refine ⟨root_le, lt_next, fun plain => Nat.lt_of_le_of_ne root_le ?_⟩
  rintro rfl
  exact (met_root mode sample).mp met plain

theorem decls_of_object (ms : List (String × Sample)) :
    (Sample.object ms).decls mode = ((Sample.object ms).walked mode).draft.decls := by
  rw [decls, draft_of_object, walked]

variable {sample} in
/-- The body of a root that is no object stands before what the walk records. -/
theorem decls_of_plain (plain : sample.members? = none) :
    sample.decls mode =
      ⟨TypeId.root, plainBody (Walk.value mode Slot.root sample Walk.start).1⟩ ::
        (sample.walked mode).draft.decls := by
  have above : Draft.Above TypeId.root (sample.walked mode).draft :=
    fun entry member => (sample.bounds_walked mode member).2.2 plain
  rw [decls, draft_of_plain plain, Draft.declare, ← walked, Draft.update_above above]
  rfl

end

/-! ## Members in blocks -/

/-- The fields and the structs that the members of an object give when the numbers from `start` on
are free. A member gives what is declared for it on its own, moved to the free numbers: all of it
when it is an object, and all but the body of the root otherwise. -/
inductive Blocks (mode : Mode) :
    TypeId → List (String × Sample) → List Field → List Decl → Prop where
  | nil (start : TypeId) : Blocks mode start [] [] []
  | object {offset : Nat} {key : String} {ms rest : List (String × Sample)} {fields : List Field}
      {decls : List Decl}
      (later : Blocks mode (TypeId.root + offset + ((Sample.object ms).decls mode).length) rest
        fields decls) :
      Blocks mode (TypeId.root + offset) ((key, .object ms) :: rest)
        (⟨key, .named (TypeId.root + offset), false⟩ :: fields)
        (((Sample.object ms).decls mode).map (Decl.shift offset) ++ decls)
  | plain {offset : Nat} {key : String} {sample : Sample} {rest : List (String × Sample)}
      {type : Ty} {own : List Decl} {fields : List Field} {decls : List Decl}
      (alone : sample.decls mode = ⟨TypeId.root, plainBody type⟩ :: own)
      (later : Blocks mode (TypeId.root + 1 + offset + own.length) rest fields decls) :
      Blocks mode (TypeId.root + 1 + offset) ((key, sample) :: rest)
        (⟨key, type.shift offset, false⟩ :: fields) (own.map (Decl.shift offset) ++ decls)

/-- Before the members with the given names: nothing has been met there, and what has been recorded
stands under numbers that are given, the one of the root apart. -/
structure Ready (names : List String) (w : Walk) : Prop where
  root_lt_next : TypeId.root < w.next
  unmet : ∀ name ∈ names, ∀ slot, w.ids.lookup (slot ++ Slot.root.member name) = none
  above : Draft.Above TypeId.root w.draft
  earlier : ∀ entry ∈ w.draft, entry.1 < w.next

theorem start_ready (names : List String) : Ready names Walk.start where
  root_lt_next := Nat.lt_succ_self _
  unmet name _ slot := by
    rw [Walk.lookup_start, if_neg]
    exact List.append_ne_nil_of_right_ne_nil slot (Slot.root.member_ne_root name)
  above := nofun
  earlier := nofun

/-- A member leaves a state that is ready for those behind it. -/
theorem Ready.value {names : List String} {key : String} {w : Walk} (ready : Ready (key :: names) w)
    (once : key ∉ names) {mode : Mode} {sample : Sample} {offset : Nat}
    (follows : Walk.Follows offset (Slot.root.member key) w.draft (sample.walked mode)
      (Walk.value mode (Slot.root.member key) sample w).2)
    (next_le : w.next ≤ (sample.walked mode).next + offset)
    (shifted : ∀ entry ∈ (sample.walked mode).draft, w.next ≤ entry.1 + offset) :
    Ready names (Walk.value mode (Slot.root.member key) sample w).2 where
  root_lt_next := by
    rw [follows.next]
    exact Nat.lt_of_lt_of_le ready.root_lt_next next_le
  unmet name member slot := by
    have different : key ≠ name := fun same => once (same ▸ member)
    rw [Walk.lookup_other_member mode different]
    exact ready.unmet name (List.mem_cons_of_mem _ member) slot
  above entry member := by
    rw [follows.draft] at member
    rcases List.mem_append.mp member with before | added
    · exact ready.above entry before
    · obtain ⟨own, recorded, rfl⟩ := List.mem_map.mp added
      exact Nat.lt_of_lt_of_le ready.root_lt_next (shifted own recorded)
  earlier entry member := by
    rw [follows.draft] at member
    rw [follows.next]
    rcases List.mem_append.mp member with before | added
    · exact Nat.lt_of_lt_of_le (ready.earlier entry before) next_le
    · obtain ⟨own, recorded, rfl⟩ := List.mem_map.mp added
      exact Nat.add_lt_add_right (sample.bounds_walked mode recorded).2.1 offset

/-- The members of an object fill their blocks one after the other. -/
theorem members_blocks (mode : Mode) {ms : List (String × Sample)} {w : Walk}
    (distinct : (ms.map (·.1)).Nodup) (ready : Ready (ms.map (·.1)) w) :
    ∃ decls, Blocks mode w.next ms (Walk.members mode Slot.root ms w).1 decls ∧
      (Walk.members mode Slot.root ms w).2.draft.decls = w.draft.decls ++ decls ∧
      Draft.Above TypeId.root (Walk.members mode Slot.root ms w).2.draft := by
  induction ms generalizing w with
  | nil =>
      rw [Walk.members]
      exact ⟨[], .nil _, (List.append_nil _).symm, ready.above⟩
  | cons m rest ih =>
      obtain ⟨key, item⟩ := m
      obtain ⟨once, others⟩ := List.nodup_cons.mp distinct
      have unmet := ready.unmet key List.mem_cons_self
      have count := item.length_decls mode
      have root_lt := (item.events_numbers mode).root_lt
      rw [Walk.members_cons]
      cases object : item.members? with
      | some inner =>
          -- The object takes the first free number, as the root of its own document takes 1.
          obtain rfl := eq_object_of_members? object
          obtain ⟨offset, next⟩ := Nat.exists_eq_add_of_le (Nat.le_of_lt ready.root_lt_next)
          obtain ⟨type, follows⟩ := Walk.value_object_follows mode inner
            (Slot.root.member_ne_root key) unmet next ready.earlier
          obtain ⟨decls, blocks, recorded, above⟩ := ih others <| ready.value once follows
            (next ▸ Nat.add_le_add_right (Nat.le_of_lt root_lt) offset)
            fun entry member => next ▸ Nat.add_le_add_right (bounds_walked mode _ member).1 offset
          have after : ((Sample.object inner).walked mode).next + offset =
              TypeId.root + offset + ((Sample.object inner).decls mode).length := by
            rw [← count]
            exact (Nat.add_assoc _ 1 offset).trans (Nat.add_comm _ _)
          refine ⟨_, ?_, by rw [recorded, follows.decls, List.append_assoc], above⟩
          rw [follows.next, after] at blocks
          rw [type, next, ← decls_of_object]
          exact .object blocks
      | none =>
          -- In its own document number 1 is used up by the root, here it takes none.
          obtain ⟨offset, next⟩ := Nat.exists_eq_add_of_le ready.root_lt_next
          obtain ⟨type, follows⟩ := Walk.value_plain_follows mode object unmet next ready.earlier
          obtain ⟨decls, blocks, recorded, above⟩ := ih others <| ready.value once follows
            (next ▸ Nat.add_le_add_right root_lt offset)
            fun entry member =>
              next ▸ Nat.add_le_add_right ((bounds_walked mode _ member).2.2 object) offset
          have alone := decls_of_plain mode object
          have after : (item.walked mode).next + offset =
              TypeId.root + 1 + offset + (item.walked mode).draft.decls.length := by
            rw [← count, alone, List.length_cons]
            exact (Nat.add_assoc _ 2 offset).trans (Nat.add_comm _ _)
          refine ⟨_, ?_, by rw [recorded, follows.decls, List.append_assoc], above⟩
          rw [follows.next, after] at blocks
          rw [type, next]
          exact .plain alone blocks

/-- An object is declared as a struct of its members, followed by what each member needs, in blocks
that do not depend on each other. -/
theorem decls_object (mode : Mode) {ms : List (String × Sample)}
    (ordered : (Sample.object ms).Ordered) :
    ∃ fields decls, Blocks mode (TypeId.root + 1) ms fields decls ∧
      (Sample.object ms).decls mode = ⟨TypeId.root, .struct fields⟩ :: decls := by
  obtain ⟨decls, blocks, recorded, above⟩ := members_blocks mode ordered.nodup_keys (start_ready _)
  refine ⟨_, decls, blocks, ?_⟩
  have keys : ((Walk.members mode Slot.root ms Walk.start).1.map (·.key)).Nodup := by
    rw [Walk.members_keys]
    exact ordered.nodup_keys
  have alone := mergeFields_singleton keys (Walk.members_required mode Slot.root ms Walk.start)
  rw [decls_of_object, walked, Walk.value_object, Walk.objectId_root, Walk.contribute,
    Draft.contribute, Draft.update_above above]
  exact congrArg₂ (· :: ·) (congrArg (Decl.mk TypeId.root ∘ Shape.struct) alone) recorded

/-- Members with the same keys below them. Objects are merged within the first one only. -/
def similarMembers : List (String × Sample) :=
  [("a", .array [.object [("x", .null)], .object [("x", .object []), ("y", .bool true)]]),
    ("b", .object [("x", .object [])]), ("c", .string ""), ("d", .array [.array [.object []]])]

theorem decls_object_similarMembers :
    (Sample.object similarMembers).Ordered ∧
      (Sample.object similarMembers).decls .unified =
        [⟨1, .struct [⟨"a", .seq (.named 2), false⟩, ⟨"b", .named 4, false⟩,
            ⟨"c", .scalar .string, false⟩, ⟨"d", .seq (.seq (.named 6)), false⟩]⟩,
          ⟨2, .struct [⟨"x", .any, false⟩, ⟨"y", .scalar .bool, true⟩]⟩, ⟨3, .struct []⟩,
          ⟨4, .struct [⟨"x", .named 5, false⟩]⟩, ⟨5, .struct []⟩, ⟨6, .struct []⟩] ∧
      ∀ mode, ∃ fields decls, Blocks mode (TypeId.root + 1) similarMembers fields decls ∧
        (Sample.object similarMembers).decls mode = ⟨TypeId.root, .struct fields⟩ :: decls := by
  have ordered : (Sample.object similarMembers).Ordered := by
    simp only [similarMembers, Ordered, OrderedItems, OrderedMembers]
    decide
  exact ⟨ordered, by decide, fun mode => decls_object mode ordered⟩

end Sample
end GoSchema
