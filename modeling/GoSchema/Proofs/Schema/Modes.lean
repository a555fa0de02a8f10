import GoSchema.Conversion
import GoSchema.Proofs.Schema.Numbering
import GoSchema.Proofs.Schema.SlotDecls

/-! # Where the modes agree

The modes number objects alike as long as no slot is met twice: then a slot never has a number when
an object is met there, apart from the root. If a slot is met twice, separate mode declares more
structs than unified mode.
-/

namespace GoSchema

namespace Walk

/-! ## Walks in step -/

/-- No object has been met at any of the slots. Only the root has a number from the start. -/
def Fresh (slots : List Slot) (w : Walk) : Prop :=
  ∀ slot ∈ slots, w.ids.lookup slot = start.ids.lookup slot

theorem Fresh.objectId {slots : List Slot} {w : Walk} (fresh : Fresh slots w) {slot : Slot}
    (new : slot ∉ slots) : Fresh slots (w.objectId .unified slot).2 := by
  intro other member
  have different : other ≠ slot := fun same => new (same ▸ member)
  rw [lookup_objectId .unified different, fresh other member]

theorem Fresh.value {slots : List Slot} {w : Walk} (fresh : Fresh slots w) {slot : Slot}
    {sample : Sample} (apart : ∀ s ∈ Sample.objectSlots slot sample, ∀ other ∈ slots, s ≠ other) :
    Fresh slots (value .unified slot sample w).2 := by
  intro other member
  have unmet : other ∉ Sample.objectSlots slot sample := fun met => apart other met other member rfl
  rw [lookup_value .unified unmet, fresh other member]

/-- The same is declared, and the same number comes next. -/
structure Alike (w w' : Walk) : Prop where
  next : w.next = w'.next
  draft : w.draft = w'.draft

theorem Alike.objectId {w w' : Walk} (alike : Alike w w') {slot : Slot}
    (fresh : w'.ids.lookup slot = start.ids.lookup slot) :
    (w.objectId .separate slot).1 = (w'.objectId .unified slot).1 ∧
      Alike (w.objectId .separate slot).2 (w'.objectId .unified slot).2 := by
  rw [lookup_start] at fresh
  by_cases root : slot = Slot.root
  · rw [if_pos root] at fresh
    rw [objectId_known fresh, root]
    exact ⟨rfl, alike⟩
  · rw [if_neg root] at fresh
    rw [objectId_new fresh, objectId_separate root]
    exact ⟨alike.next, congrArg (· + 1) alike.next, alike.draft⟩

theorem Alike.contribute {w w' : Walk} (alike : Alike w w') (id : TypeId) (own : List Field) :
    Alike (w.contribute id own) (w'.contribute id own) :=
  ⟨alike.next, congrArg (·.contribute id own) alike.draft⟩

mutual
/-- Walks in both modes stay in step through a value whose objects are at different new slots. -/
theorem value_alike (slot : Slot) (sample : Sample) {w w' : Walk} (alike : Alike w w')
    (fresh : Fresh (Sample.objectSlots slot sample) w')
    (distinct : (Sample.objectSlots slot sample).Nodup) :
    (value .separate slot sample w).1 = (value .unified slot sample w').1 ∧
      Alike (value .separate slot sample w).2 (value .unified slot sample w').2 := by
  cases sample with
  | null | bool | number | string =>
      simp only [value]
      exact ⟨trivial, alike⟩
  | array items =>
      rw [Sample.objectSlots] at fresh distinct
      rw [value_array, value_array]
      obtain ⟨types, after⟩ := elements_alike slot.element items alike fresh distinct
      exact ⟨by rw [types], after⟩
  | object ms =>
      rw [Sample.objectSlots] at fresh distinct
      obtain ⟨once, below⟩ := List.nodup_cons.mp distinct
      obtain ⟨id, identified⟩ := alike.objectId (fresh slot List.mem_cons_self)
      -- Giving the slot a number leaves those below it fresh, since none of them is the slot again.
      have others : Fresh (Sample.memberSlots slot ms) w' :=
        fun s member => fresh s (List.mem_cons_of_mem _ member)
      obtain ⟨fields, after⟩ := members_alike slot ms identified (others.objectId once) below
      rw [value_object, value_object, id, fields]
      exact ⟨rfl, after.contribute _ _⟩
termination_by sizeOf sample

theorem elements_alike (slot : Slot) (items : List Sample) {w w' : Walk} (alike : Alike w w')
    (fresh : Fresh (Sample.itemSlots slot items) w')
    (distinct : (Sample.itemSlots slot items).Nodup) :
    (elements .separate slot items w).1 = (elements .unified slot items w').1 ∧
      Alike (elements .separate slot items w).2 (elements .unified slot items w').2 := by
  cases items with
  | nil =>
      simp only [elements]
      exact ⟨trivial, alike⟩
  | cons item rest =>
      rw [Sample.itemSlots] at fresh distinct
      obtain ⟨here, later, apart⟩ := List.nodup_append.mp distinct
      obtain ⟨new, others⟩ := List.forall_mem_append.mp fresh
      obtain ⟨type, first⟩ := value_alike slot item alike new here
      obtain ⟨types, after⟩ := elements_alike slot rest first (Fresh.value others apart) later
      rw [elements_cons, elements_cons, type, types]
      exact ⟨rfl, after⟩
termination_by sizeOf items

theorem members_alike (slot : Slot) (ms : List (String × Sample)) {w w' : Walk}
    (alike : Alike w w')
    (fresh : Fresh (Sample.memberSlots slot ms) w')
    (distinct : (Sample.memberSlots slot ms).Nodup) :
    (members .separate slot ms w).1 = (members .unified slot ms w').1 ∧
      Alike (members .separate slot ms w).2 (members .unified slot ms w').2 := by
  match ms, fresh, distinct with
  | [], _, _ =>
      simp only [members]
      exact ⟨trivial, alike⟩
  | (key, item) :: rest, fresh, distinct =>
      rw [Sample.memberSlots] at fresh distinct
      obtain ⟨here, later, apart⟩ := List.nodup_append.mp distinct
      obtain ⟨new, others⟩ := List.forall_mem_append.mp fresh
      obtain ⟨type, first⟩ := value_alike (slot.member key) item alike new here
      obtain ⟨fields, after⟩ := members_alike slot rest first (Fresh.value others apart) later
      rw [members_cons, members_cons, type, fields]
      exact ⟨rfl, after⟩
termination_by sizeOf ms
end

/-! ## Counting -/

/-- In separate mode every object but the root gets a number of its own. -/
theorem Run.next_separate {w w' : Walk} {es : List Event} (run : Run .separate w es w') :
    w'.next = w.next + ((es.filterMap Event.slot?).filter (· != Slot.root)).length := by
  induction run with
  | done => rfl
  | @step w _ _ _ _ first _ ih =>
      cases first with
      | number slot =>
          simp only [ih, List.filterMap_cons, Event.slot?, List.filter_cons]
          by_cases root : slot = Slot.root
          · simp [Walk.objectId, root]
          · have next : (w.objectId .separate slot).2.next = w.next + 1 := by
              rw [objectId_separate root]
            simp [root, next, Nat.add_assoc, Nat.add_comm 1]
      | contribute => exact ih

end Walk

namespace Sample

theorem draft_separate {sample : Sample} (distinct : (sample.objectSlots Slot.root).Nodup) :
    sample.draft .separate = sample.draft .unified := by
  obtain ⟨type, alike⟩ :=
    Walk.value_alike Slot.root sample ⟨rfl, rfl⟩ (fun _ _ => rfl) distinct
  cases object : sample.members? with
  | none => rw [draft_of_plain object, draft_of_plain object, type, alike.draft]
  | some ms =>
      obtain rfl := eq_object_of_members? object
      rw [draft_of_object, draft_of_object, alike.draft]

theorem length_decls_separate (sample : Sample) :
    (sample.decls .separate).length =
      ((sample.objectSlots Slot.root).filter (· != Slot.root)).length + 1 := by
  have next := (sample.run_events .separate).next_separate
  have first : Walk.start.next = 2 := rfl
  rw [filterMap_slot?_events, ← length_decls, first] at next
  exact Nat.succ.inj (next.trans (Nat.add_comm 2 _))

theorem length_decls_unified (sample : Sample) :
    (sample.decls .unified).length =
      ((sample.objectSlots Slot.root).filter (· != Slot.root)).eraseDups.length + 1 := by
  rw [decls_unified, List.length_map, slots, List.eraseDups_cons, List.length_cons]
  rfl

theorem count_objectSlots (sample : Sample) (slot : Slot) :
    (sample.objectSlots Slot.root).count slot = (sample.objectsAt slot).length := by
  rw [(objectSlots_perm Slot.root sample).count_eq]
  have here := congrArg List.length (filter_visits_root slot sample)
  rw [List.length_map] at here
  rw [← here, List.count, List.countP_map, List.countP_eq_length_filter]
  simp only [Function.comp_def, beq_eq_decide]

theorem length_objectsAt_le_one {sample : Sample}
    (same : (sample.decls .separate).length = (sample.decls .unified).length) (slot : Slot) :
    (sample.objectsAt slot).length ≤ 1 := by
  by_cases root : slot = Slot.root
  · rw [root, objectsAt_root]
    cases sample.members? <;> simp
  · rw [length_decls_separate, length_decls_unified] at same
    have distinct := FirstOccurrence.nodup_of_length_eraseDups (Nat.add_right_cancel same).symm
    have once := List.nodup_iff_count_le_one.mp distinct slot
    rwa [List.count_filter (by simpa using root), count_objectSlots] at once

/-- The modes declare the same exactly when no two objects are at one slot. -/
theorem decls_separate_iff (sample : Sample) :
    (sample.decls .separate = sample.decls .unified ↔
        ∀ slot, (sample.objectsAt slot).length ≤ 1) ∧
      ((∀ slot, (sample.objectsAt slot).length ≤ 1) →
        sample.outline = sample.convert .default) := by
  have agree (alone : ∀ slot, (sample.objectsAt slot).length ≤ 1) :
      sample.decls .separate = sample.decls .unified := by
    have distinct : (sample.objectSlots Slot.root).Nodup :=
      List.nodup_iff_count_le_one.mpr fun slot => by rw [count_objectSlots]; exact alone slot
    rw [decls, draft_separate distinct, ← decls]
  refine ⟨⟨fun same => length_objectsAt_le_one (congrArg List.length same), agree⟩, ?_⟩
  intro alone
  rw [outline, convert, agree alone]

/-- Every object is at a slot of its own, though two of them stand in arrays with other elements. -/
def loneObjects : Sample :=
  .object [("a", .array [.object [("b", .object [])], .null]),
    ("b", .array [.array [], .array [.object [("c", .array [.bool true])]]])]

/-- The objects below `a` are at one slot, which no type shows. -/
def hiddenObjects : Sample :=
  .object [("a", .array [.object [], .null, .object []])]

theorem decls_separate_loneObjects :
    (∀ slot, (loneObjects.objectsAt slot).length ≤ 1) ∧
      loneObjects.decls .separate = loneObjects.decls .unified ∧
      loneObjects.outline = loneObjects.convert .default ∧
      (hiddenObjects.objectsAt [.item, .key "a"]).length = 2 ∧
      hiddenObjects.decls .separate ≠ hiddenObjects.decls .unified := by
  have alone : ∀ slot, (loneObjects.objectsAt slot).length ≤ 1 := by
    intro slot
    rw [← count_objectSlots]
    exact List.nodup_iff_count_le_one.mp (by decide) slot
  have two : (hiddenObjects.objectsAt [.item, .key "a"]).length = 2 := by decide
  refine ⟨alone, (decls_separate_iff loneObjects).1.mpr alone,
    (decls_separate_iff loneObjects).2 alone, two, fun same => ?_⟩
  have one := (decls_separate_iff hiddenObjects).1.mp same [.item, .key "a"]
  rw [two] at one
  exact absurd one (by decide)

end Sample
end GoSchema
