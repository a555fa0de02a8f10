import GoSchema.Proofs.Schema.Slots
import GoSchema.Proofs.Schema.Walk

/-! # The walk records what slots mean

The walk in unified mode passes a counter, a list of known slots and a draft along. What it
records is exactly what the slots of the document mean.
-/

namespace GoSchema

/-! ## The slots that a walk knows -/

/-- Add a slot to the known ones, unless it is known. -/
def Slot.meet (met : List Slot) (slot : Slot) : List Slot :=
  if slot ∈ met then met else met ++ [slot]

def Slot.numberIn (met : List Slot) (slot : Slot) : TypeId :=
  met.idxOf slot + 1

theorem Slot.mem_meet (met : List Slot) (slot : Slot) : slot ∈ meet met slot := by
  rw [meet]
  split
  · next known => exact known
  · simp

theorem Slot.prefix_foldl_meet (met slots : List Slot) : met <+: slots.foldl meet met := by
  induction slots generalizing met with
  | nil => exact List.prefix_refl met
  | cons slot slots ih =>
      refine List.IsPrefix.trans ?_ (ih (meet met slot))
      rw [meet]
      split
      · exact List.prefix_refl met
      · exact List.prefix_append met [slot]

/-- Known slots keep their numbers. -/
theorem Slot.numberIn_of_prefix {met final : List Slot} (grown : met <+: final) {slot : Slot}
    (known : slot ∈ met) : numberIn final slot = numberIn met slot := by
  obtain ⟨later, rfl⟩ := grown
  rw [numberIn, numberIn, List.idxOf_append_of_mem known]

/-- Meeting slots one after the other lists them by first occurrence. -/
theorem Slot.foldl_meet_eq_eraseDups {met : List Slot} (distinct : met.Nodup)
    (slots : List Slot) : slots.foldl meet met = (met ++ slots).eraseDups := by
  induction slots using List.reverseRecOn with
  | nil => rw [List.append_nil, FirstOccurrence.eraseDups_of_nodup distinct, List.foldl_nil]
  | append_singleton slots slot ih =>
      rw [List.foldl_append, ih, ← List.append_assoc, FirstOccurrence.eraseDups_concat]
      simp only [List.foldl_cons, List.foldl_nil, meet, List.mem_eraseDups]

namespace Walk

open Slot (meet numberIn)

/-- The state has numbered exactly the given slots, in this order. -/
structure Knows (met : List Slot) (w : Walk) : Prop where
  next : w.next = met.length + 1
  ids : ∀ slot, w.ids.lookup slot = if slot ∈ met then some (numberIn met slot) else none

theorem start_knows : Knows [Slot.root] start where
  next := rfl
  ids slot := by
    rw [lookup_start]
    by_cases root : slot = Slot.root
    · rw [if_pos root, root]
      rfl
    · simp [root]

theorem Knows.objectId {met : List Slot} {w : Walk} (knows : Knows met w) (slot : Slot) :
    (w.objectId .unified slot).1 = numberIn (meet met slot) slot ∧
      Knows (meet met slot) (w.objectId .unified slot).2 := by
  have found := knows.ids slot
  by_cases known : slot ∈ met
  · rw [if_pos known] at found
    simp only [Walk.objectId, found, meet, if_pos known]
    exact ⟨trivial, knows⟩
  · rw [if_neg known] at found
    simp only [Walk.objectId, found, meet, if_neg known]
    have last : numberIn (met ++ [slot]) slot = met.length + 1 := by
      simp [numberIn, List.idxOf_append_of_notMem known]
    refine ⟨knows.next.trans last.symm, by simp [fresh, knows.next], fun other => ?_⟩
    by_cases same : other = slot
    · subst same
      simp only [List.lookup_cons_self, List.mem_append, List.mem_singleton, or_true, if_true]
      exact congrArg some (knows.next.trans last.symm)
    · have kept : (if other ∈ met ++ [slot] then some (numberIn (met ++ [slot]) other) else none) =
          if other ∈ met then some (numberIn met other) else none := by
        by_cases earlier : other ∈ met
        · rw [if_pos earlier, if_pos (List.mem_append_left _ earlier),
            Slot.numberIn_of_prefix (List.prefix_append met [slot]) earlier]
        · rw [if_neg earlier, if_neg (by simp [earlier, same])]
      rw [lookup_cons_of_ne _ _ same, kept]
      exact knows.ids other

def record (number : Slot → TypeId) (visited : List (Slot × List (String × Sample)))
    (draft : Draft) : Draft :=
  visited.foldl (fun draft visit =>
    draft.contribute (number visit.1) (Sample.fieldsAt number visit.1 visit.2)) draft

theorem record_append (number : Slot → TypeId)
    (visited later : List (Slot × List (String × Sample))) (draft : Draft) :
    record number (visited ++ later) draft = record number later (record number visited draft) :=
  List.foldl_append

/-! ## The walk computes the meaning of slots -/

mutual
/-- A walk meets the slots of a value in the order of their first objects. Its types and what it
records are those that any later numbering gives, since known slots keep their numbers. -/
theorem value_unified (slot : Slot) (sample : Sample) {met : List Slot} {w : Walk}
    (knows : Knows met w) :
    Knows ((Sample.objectSlots slot sample).foldl meet met) (value .unified slot sample w).2 ∧
    ∀ final, (Sample.objectSlots slot sample).foldl meet met <+: final →
      (value .unified slot sample w).1 = Sample.typeAt (numberIn final) slot sample ∧
      (value .unified slot sample w).2.draft =
        record (numberIn final) (Sample.visits slot sample) w.draft := by
  cases sample with
  | null | bool | number | string =>
      rw [value]
      exact ⟨knows, fun _ _ => ⟨rfl, rfl⟩⟩
  | array items =>
      rw [value_array]
      obtain ⟨known, agrees⟩ := elements_unified slot.element items knows
      refine ⟨known, fun final grown => ?_⟩
      obtain ⟨types, draft⟩ := agrees final grown
      exact ⟨by rw [types, Ty.unifyAll_eq_common, Sample.typeAt], draft⟩
  | object ms =>
      rw [value_object]
      obtain ⟨id, identified⟩ := knows.objectId slot
      obtain ⟨known, agrees⟩ := members_unified slot ms identified
      refine ⟨⟨known.next, known.ids⟩, fun final grown => ?_⟩
      obtain ⟨fields, draft⟩ := agrees final grown
      have earlier : meet met slot <+: final := (Slot.prefix_foldl_meet _ _).trans grown
      have number : (w.objectId .unified slot).1 = numberIn final slot :=
        id.trans (Slot.numberIn_of_prefix earlier (Slot.mem_meet met slot)).symm
      refine ⟨by rw [number, Sample.typeAt], ?_⟩
      rw [contribute, number, fields, draft, draft_objectId, Sample.visits, record_append]
      rfl
termination_by sizeOf sample

theorem elements_unified (slot : Slot) (items : List Sample) {met : List Slot} {w : Walk}
    (knows : Knows met w) :
    Knows ((Sample.itemSlots slot items).foldl meet met) (elements .unified slot items w).2 ∧
    ∀ final, (Sample.itemSlots slot items).foldl meet met <+: final →
      (elements .unified slot items w).1 = Sample.typesAt (numberIn final) slot items ∧
      (elements .unified slot items w).2.draft =
        record (numberIn final) (Sample.itemVisits slot items) w.draft := by
  cases items with
  | nil =>
      rw [elements]
      exact ⟨knows, fun _ _ => ⟨rfl, rfl⟩⟩
  | cons item rest =>
      rw [elements_cons, Sample.itemSlots, List.foldl_append]
      obtain ⟨first, firstAgrees⟩ := value_unified slot item knows
      obtain ⟨known, agrees⟩ := elements_unified slot rest first
      refine ⟨known, fun final grown => ?_⟩
      obtain ⟨type, draft⟩ := firstAgrees final ((Slot.prefix_foldl_meet _ _).trans grown)
      obtain ⟨types, draftAfter⟩ := agrees final grown
      refine ⟨by rw [type, types, Sample.typesAt], ?_⟩
      rw [draftAfter, draft, Sample.itemVisits, record_append]
termination_by sizeOf items

theorem members_unified (slot : Slot) (ms : List (String × Sample)) {met : List Slot} {w : Walk}
    (knows : Knows met w) :
    Knows ((Sample.memberSlots slot ms).foldl meet met) (members .unified slot ms w).2 ∧
    ∀ final, (Sample.memberSlots slot ms).foldl meet met <+: final →
      (members .unified slot ms w).1 = Sample.fieldsAt (numberIn final) slot ms ∧
      (members .unified slot ms w).2.draft =
        record (numberIn final) (Sample.memberVisits slot ms) w.draft := by
  match ms with
  | [] =>
      rw [members]
      exact ⟨knows, fun _ _ => ⟨rfl, rfl⟩⟩
  | (key, item) :: rest =>
      rw [members_cons, Sample.memberSlots, List.foldl_append]
      obtain ⟨first, firstAgrees⟩ := value_unified (slot.member key) item knows
      obtain ⟨known, agrees⟩ := members_unified slot rest first
      refine ⟨known, fun final grown => ?_⟩
      obtain ⟨type, draft⟩ := firstAgrees final ((Slot.prefix_foldl_meet _ _).trans grown)
      obtain ⟨fields, draftAfter⟩ := agrees final grown
      refine ⟨by rw [type, fields]; rfl, ?_⟩
      rw [draftAfter, draft, Sample.memberVisits, record_append]
termination_by sizeOf ms
end

end Walk

namespace Sample

/-! ## The finished draft -/

theorem ascending_record (number : Slot → TypeId)
    (visited : List (Slot × List (String × Sample))) :
    (Walk.record number visited []).Ascending := by
  induction visited using List.reverseRecOn with
  | nil => exact Draft.ascending_nil
  | append_singleton visited visit ih =>
      rw [Walk.record_append]
      exact ih.update

/-- Under each number stand the fields of the visited objects with that number. -/
theorem lookup_record (number : Slot → TypeId)
    (visited : List (Slot × List (String × Sample))) (id : TypeId) :
    List.lookup id (Walk.record number visited []) =
      match visited.filter (number ·.1 = id) with
      | [] => none
      | own => some (.struct (own.map fun visit => fieldsAt number visit.1 visit.2)) := by
  induction visited using List.reverseRecOn with
  | nil => rfl
  | append_singleton visited visit ih =>
      have recorded : List.lookup id (Walk.record number (visited ++ [visit]) []) =
          if id = number visit.1
          then some (((Walk.record number visited []).lookup (number visit.1)).getD
            (.struct []) |>.contribute (fieldsAt number visit.1 visit.2))
          else (Walk.record number visited []).lookup id := by
        rw [Walk.record_append]
        exact Draft.lookup_contribute (ascending_record number visited) _ _ _
      rw [recorded, List.filter_append]
      by_cases same : id = number visit.1
      · subst same
        rw [if_pos rfl, ih]
        cases visited.filter (number ·.1 = number visit.1) <;> simp [Entry.contribute]
      · rw [if_neg same, ih]
        have other : ¬ number visit.1 = id := Ne.symm same
        simp [other]

theorem filter_visits_root (slot : Slot) (sample : Sample) :
    (visits Slot.root sample).filter (·.1 = slot) = (sample.objectsAt slot).map (slot, ·) := by
  have recorded := filter_visits Slot.root slot sample
  rwa [Slot.root, List.append_nil] at recorded

theorem objectsAt_of_visited {sample : Sample} {visit : Slot × List (String × Sample)}
    (visited : visit ∈ visits Slot.root sample) : sample.objectsAt visit.1 ≠ [] := by
  intro none
  have recorded := filter_visits_root visit.1 sample
  rw [none, List.map_nil, List.filter_eq_nil_iff] at recorded
  exact recorded visit visited (by simp)

/-- Besides the root, exactly the slots with objects are numbered. -/
theorem mem_slots {sample : Sample} {slot : Slot} :
    slot ∈ sample.slots ↔ slot = Slot.root ∨ sample.objectsAt slot ≠ [] := by
  rw [slots, List.mem_eraseDups, List.mem_cons, mem_objectSlots]
  refine or_congr_right ⟨?_, ?_⟩
  · intro met
    obtain ⟨visit, visited, rfl⟩ := List.mem_map.mp met
    exact objectsAt_of_visited visited
  · intro some
    obtain ⟨ms, here⟩ := List.exists_mem_of_ne_nil _ some
    have visited : (slot, ms) ∈ (visits Slot.root sample).filter (·.1 = slot) := by
      rw [filter_visits_root]
      exact List.mem_map.mpr ⟨ms, here, rfl⟩
    exact List.mem_map.mpr ⟨(slot, ms), List.mem_of_mem_filter visited, rfl⟩

theorem slotNumber_inj {sample : Sample} {slot other : Slot} (known : slot ∈ sample.slots)
    (same : sample.slotNumber slot = sample.slotNumber other) : slot = other :=
  (List.idxOf_inj known).mp (Nat.add_right_cancel same)

/-- The objects with the number of a slot are those at the slot. -/
theorem filter_slotNumber {sample : Sample} {slot : Slot} (known : slot ∈ sample.slots) :
    (visits Slot.root sample).filter (sample.slotNumber ·.1 = sample.slotNumber slot) =
      (sample.objectsAt slot).map (slot, ·) := by
  rw [← filter_visits_root]
  apply List.filter_congr
  intro visit visited
  simp only [decide_eq_decide]
  exact ⟨fun same => (slotNumber_inj known same.symm).symm, fun same => by rw [same]⟩

theorem lookup_structAt {sample : Sample} {slot : Slot} (present : sample.objectsAt slot ≠ []) :
    List.lookup (sample.slotNumber slot)
        (Walk.record sample.slotNumber (visits Slot.root sample) []) =
      some (sample.structAt slot).2 := by
  rw [lookup_record, filter_slotNumber (mem_slots.mpr (.inr present)), structAt]
  cases objects : sample.objectsAt slot with
  | nil => exact absurd objects present
  | cons ms rest => simp [Function.comp_def]

theorem mem_record_visits (sample : Sample) (id : TypeId) (e : Entry) :
    (id, e) ∈ Walk.record sample.slotNumber (visits Slot.root sample) [] ↔
      ∃ slot, sample.objectsAt slot ≠ [] ∧ sample.structAt slot = (id, e) := by
  rw [Draft.mem_iff_lookup (ascending_record _ _)]
  constructor
  · intro found
    have some : ∃ visit ∈ visits Slot.root sample, sample.slotNumber visit.1 = id := by
      by_contra none
      have nothing : (visits Slot.root sample).filter (sample.slotNumber ·.1 = id) = [] :=
        List.filter_eq_nil_iff.mpr fun visit visited same =>
          none ⟨visit, visited, of_decide_eq_true same⟩
      rw [lookup_record, nothing] at found
      cases found
    obtain ⟨visit, visited, rfl⟩ := some
    have present := objectsAt_of_visited visited
    rw [lookup_structAt present] at found
    exact ⟨visit.1, present, Prod.ext rfl (Option.some.inj found)⟩
  · intro given
    obtain ⟨slot, present, same⟩ := given
    obtain ⟨rfl, rfl⟩ := Prod.mk.inj same
    exact lookup_structAt present

theorem nodup_slots (sample : Sample) : sample.slots.Nodup :=
  FirstOccurrence.nodup_eraseDups _

theorem ascending_structs (sample : Sample) :
    Draft.Ascending (sample.slots.map sample.structAt) := by
  rw [Draft.Ascending, List.pairwise_map, List.pairwise_iff_getElem]
  intro i j first second before
  simp only [structAt, slotNumber, sample.nodup_slots.idxOf_getElem]
  exact Nat.succ_lt_succ before

theorem slots_eq_cons (sample : Sample) :
    sample.slots = Slot.root :: sample.slots.tail := by
  rw [slots, List.eraseDups_cons, List.tail_cons]

theorem mem_tail_slots {sample : Sample} {slot : Slot} :
    slot ∈ sample.slots.tail ↔ slot ≠ Slot.root ∧ sample.objectsAt slot ≠ [] := by
  have distinct := sample.nodup_slots
  rw [slots_eq_cons, List.nodup_cons] at distinct
  have all : slot ∈ sample.slots ↔ slot = Slot.root ∨ sample.objectsAt slot ≠ [] := mem_slots
  rw [slots_eq_cons, List.mem_cons] at all
  constructor
  · intro later
    have notRoot : slot ≠ Slot.root := fun root => distinct.1 (root ▸ later)
    exact ⟨notRoot, (all.mp (.inr later)).resolve_left notRoot⟩
  · intro given
    obtain ⟨notRoot, present⟩ := given
    exact (all.mpr (.inr present)).resolve_left notRoot

/-- What a walk through the whole sample gives. -/
theorem value_unified_root (sample : Sample) :
    (Walk.value .unified Slot.root sample Walk.start).1 =
        typeAt sample.slotNumber Slot.root sample ∧
      (Walk.value .unified Slot.root sample Walk.start).2.draft =
        Walk.record sample.slotNumber (visits Slot.root sample) [] := by
  have met : (sample.objectSlots Slot.root).foldl Slot.meet [Slot.root] = sample.slots :=
    Slot.foldl_meet_eq_eraseDups (List.nodup_singleton _) _
  obtain ⟨-, agrees⟩ := Walk.value_unified Slot.root sample Walk.start_knows
  exact agrees sample.slots (met ▸ List.prefix_refl _)

theorem draft_of_plain {sample : Sample} (plain : sample.members? = none) (mode : Mode) :
    sample.draft mode = (Walk.value mode Slot.root sample Walk.start).2.draft.declare TypeId.root
      (plainBody (Walk.value mode Slot.root sample Walk.start).1) := by
  cases sample with
  | null | bool | number | string => simp only [draft, Walk.value, plainBody]
  | array items => simp only [draft, Walk.value_array, plainBody]
  | object ms => cases plain

theorem slotDraft_of_plain {sample : Sample} (plain : sample.members? = none) :
    sample.slotDraft =
      (TypeId.root, .plain (plainBody (sample.typeAt sample.slotNumber Slot.root))) ::
        sample.slots.tail.map sample.structAt := by
  cases sample with
  | null | bool | number | string | array => rfl
  | object ms => cases plain

theorem objectsAt_root (sample : Sample) :
    sample.objectsAt Slot.root = sample.members?.toList := by
  simp only [objectsAt, valuesAt, Slot.root, List.filterMap_cons, List.filterMap_nil]
  cases sample.members? <;> rfl

theorem slotNumber_root (sample : Sample) : sample.slotNumber Slot.root = TypeId.root := by
  rw [slotNumber, slots_eq_cons, List.idxOf_cons_self]
  rfl

theorem draft_eq_slotDraft (sample : Sample) : sample.draft .unified = sample.slotDraft := by
  obtain ⟨type, walked⟩ := value_unified_root sample
  have ascending := ascending_structs sample
  cases object : sample.members? with
  | some ms =>
      obtain rfl := eq_object_of_members? object
      rw [draft_of_object, walked, slotDraft]
      apply Draft.ext_mem (ascending_record _ _) ascending
      intro id e
      rw [mem_record_visits, List.mem_map]
      refine exists_congr fun slot => and_congr_left fun _ => ?_
      rw [mem_slots]
      refine ⟨.inr, ?_⟩
      intro given
      rcases given with rfl | present
      · simp [objectsAt_root, members?]
      · exact present
  | none =>
      have recorded := ascending_record sample.slotNumber (visits Slot.root sample)
      have above : Draft.Above TypeId.root (sample.slots.tail.map sample.structAt) ∧
          Draft.Ascending (sample.slots.tail.map sample.structAt) := by
        rw [slots_eq_cons, List.map_cons, structAt, slotNumber_root] at ascending
        exact Draft.ascending_cons.mp ascending
      rw [draft_of_plain object, slotDraft_of_plain object, type, walked]
      refine Draft.ext_mem recorded.update (Draft.ascending_cons.mpr above) fun id e => ?_
      rw [Draft.mem_declare recorded, List.mem_cons, Prod.mk.injEq]
      by_cases root : id = TypeId.root
      · have later : (id, e) ∉ sample.slots.tail.map sample.structAt :=
          fun member => Nat.ne_of_gt (above.1 _ member) root
        rw [if_pos root, or_iff_left later, and_iff_right root]
      · rw [if_neg root, or_iff_right fun first => root first.1, mem_record_visits, List.mem_map]
        refine exists_congr fun slot => and_congr_left fun same => ?_
        rw [mem_tail_slots, and_iff_right]
        rintro rfl
        exact root ((Prod.mk.inj same).1.symm.trans (slotNumber_root sample))

/-! ## Bounds and order -/

theorem Ordered.child {sample : Sample} (ordered : sample.Ordered) {step : Step} {part : Sample}
    (inside : part ∈ sample.children step) : part.Ordered := by
  rcases children_cases inside with ⟨items, rfl, rfl, member⟩ | ⟨name, ms, rfl, rfl, member⟩
  · exact ordered.item member
  · exact ordered.member member

theorem Ordered.valuesAt {sample : Sample} (ordered : sample.Ordered) {slot : Slot}
    {part : Sample} (here : part ∈ sample.valuesAt slot) : part.Ordered := by
  induction slot generalizing part with
  | nil => rwa [List.mem_singleton.mp here]
  | cons step slot ih =>
      obtain ⟨whole, above, inside⟩ := List.mem_flatMap.mp here
      exact (ih above).child inside

/-- Every object of a sample has its keys in ascending order. -/
theorem Ordered.objectsAt {sample : Sample} (ordered : sample.Ordered) {slot : Slot}
    {ms : List (String × Sample)} (here : ms ∈ sample.objectsAt slot) :
    (ms.map (·.1)).Pairwise (· < ·) := by
  obtain ⟨part, inside, object⟩ := List.mem_filterMap.mp here
  have below := ordered.valuesAt inside
  cases part with
  | object others =>
      simp only [members?, Option.some.injEq] at object
      subst object
      simp only [Ordered] at below
      exact below.1
  | null | bool | number | string | array => cases object

theorem slotNumber_le {sample : Sample} {slot : Slot} (known : slot ∈ sample.slots) :
    sample.slotNumber slot ≤ (sample.objectSlots Slot.root).length + 1 := by
  have bound := FirstOccurrence.length_eraseDups_le (Slot.root :: sample.objectSlots Slot.root)
  exact Nat.le_trans (List.idxOf_lt_length_of_mem known) bound

theorem mem_slotDraft {sample : Sample} {id : TypeId} {e : Entry}
    (member : (id, e) ∈ sample.slotDraft) :
    (∃ slot ∈ sample.slots, sample.structAt slot = (id, e)) ∨
      id = TypeId.root ∧ ∃ shape, e = .plain shape := by
  cases sample with
  | object ms => exact .inl (List.mem_map.mp member)
  | null | bool | number | string | array =>
      rw [slotDraft_of_plain rfl] at member
      rcases List.mem_cons.mp member with plain | later
      · obtain ⟨rfl, rfl⟩ := Prod.mk.inj plain
        exact .inr ⟨rfl, _, rfl⟩
      · obtain ⟨slot, known, same⟩ := List.mem_map.mp later
        exact .inl ⟨slot, List.mem_of_mem_tail known, same⟩

/-- The fields that an object contributes ascend by key. -/
theorem Ordered.keys_ascend {sample : Sample} (ordered : sample.Ordered) {id : TypeId}
    {contributions : List (List Field)} (member : (id, .struct contributions) ∈ sample.slotDraft)
    {fields : List Field} (present : fields ∈ contributions) :
    (fields.map (·.key)).Pairwise (· < ·) := by
  rcases mem_slotDraft member with ⟨slot, -, same⟩ | ⟨-, shape, plain⟩
  · obtain ⟨-, struct⟩ := Prod.mk.inj same
    obtain rfl := Entry.struct.inj struct
    obtain ⟨ms, here, rfl⟩ := List.mem_map.mp present
    rw [keys_fieldsAt]
    exact ordered.objectsAt here
  · cases plain

/-- There are no more numbers than objects, the root apart. -/
theorem id_le_of_mem_slotDraft {sample : Sample} {id : TypeId} {e : Entry}
    (member : (id, e) ∈ sample.slotDraft) :
    id ≤ (sample.objectSlots Slot.root).length + 1 := by
  rcases mem_slotDraft member with ⟨slot, known, same⟩ | ⟨rfl, -⟩
  · obtain ⟨rfl, -⟩ := Prod.mk.inj same
    exact slotNumber_le known
  · exact Nat.le_add_left 1 _

/-- Unified inference records what the slots of a document mean: one struct for each numbered
slot with objects, and a plain body for a root that is none. The numbered slots are the root and
those with objects, contributed fields ascend by key, and there are no more numbers than objects,
the root apart. -/
theorem draft_unified (sample : Sample) :
    sample.draft .unified = sample.slotDraft ∧
      (∀ slot, slot ∈ sample.slots ↔ slot = Slot.root ∨ sample.objectsAt slot ≠ []) ∧
      (sample.Ordered → ∀ id contributions, (id, .struct contributions) ∈ sample.draft .unified →
        ∀ fields ∈ contributions, (fields.map (·.key)).Pairwise (· < ·)) ∧
      ∀ id e, (id, e) ∈ sample.draft .unified →
        id ≤ (sample.objectSlots Slot.root).length + 1 := by
  rw [draft_eq_slotDraft]
  exact ⟨rfl, fun _ => mem_slots, fun ordered _ _ member _ present =>
    ordered.keys_ascend member present, fun _ _ => id_le_of_mem_slotDraft⟩

/-- Sibling arrays share the slot of their elements, which is met before the slot below it. -/
def siblingArrays : Sample :=
  .object [("a", .array [.object [("b", .object [])], .null]),
    ("b", .array [.array [.object []], .array [.object [("b", .string "")]]])]

theorem draft_unified_siblingArrays :
    siblingArrays.slots =
        [[], [.item, .key "a"], [.key "b", .item, .key "a"], [.item, .item, .key "b"]] ∧
      siblingArrays.draft .unified = siblingArrays.slotDraft ∧
      ∀ id contributions, (id, .struct contributions) ∈ siblingArrays.draft .unified →
        ∀ fields ∈ contributions, (fields.map (·.key)).Pairwise (· < ·) := by
  have ordered : siblingArrays.Ordered := by
    simp only [siblingArrays, Ordered, OrderedItems, OrderedMembers]
    decide
  obtain ⟨recorded, -, ascend, -⟩ := draft_unified siblingArrays
  exact ⟨by decide, recorded, ascend ordered⟩

end Sample
end GoSchema
