import GoSchema.Proofs.Schema.Slots
import GoSchema.Proofs.Schema.Walk

/-! # Events of a walk

A walk changes its state in two ways only: an object that is met gets a number, and an object that
is left has its fields recorded. One after the other, these events lead from the state before a
walk to the state after it, so what every event keeps holds at each moment of a walk.
-/

namespace GoSchema

inductive Event where
  /-- An object at a slot gets a number. -/
  | number (slot : Slot) (id : TypeId)
  /-- The fields of an object are recorded under its number. -/
  | contribute (id : TypeId) (fields : List Field)
  deriving DecidableEq, Repr

namespace Event

/-- The slot of an object that is met. -/
def slot? : Event → Option Slot
  | .number slot _ => some slot
  | .contribute _ _ => none

/-- The fields that are recorded under a number. -/
def fieldsFor? (id : TypeId) : Event → Option (List Field)
  | .number _ _ => none
  | .contribute i fields => if i = id then some fields else none

theorem mem_filterMap_fieldsFor? {id : TypeId} {fields : List Field} {es : List Event} :
    fields ∈ es.filterMap (fieldsFor? id) ↔ .contribute id fields ∈ es := by
  rw [List.mem_filterMap]
  constructor
  · intro given
    obtain ⟨e, member, found⟩ := given
    cases e with
    | number => cases found
    | contribute i own =>
        simp only [fieldsFor?, Option.ite_none_right_eq_some, Option.some.injEq] at found
        obtain ⟨rfl, rfl⟩ := found
        exact member
  · exact fun member => ⟨_, member, if_pos rfl⟩

end Event

namespace Walk

/-- One event, with the state before it and the state after it. -/
inductive Step (mode : Mode) : Walk → Event → Walk → Prop where
  | number (w : Walk) (slot : Slot) :
      Step mode w (.number slot (w.objectId mode slot).1) (w.objectId mode slot).2
  | contribute (w : Walk) (id : TypeId) (fields : List Field) :
      Step mode w (.contribute id fields) (w.contribute id fields)

/-- Events one after the other. -/
inductive Run (mode : Mode) : Walk → List Event → Walk → Prop where
  | done (w : Walk) : Run mode w [] w
  | step {w₁ w₂ w₃ : Walk} {e : Event} {es : List Event} (first : Step mode w₁ e w₂)
      (rest : Run mode w₂ es w₃) : Run mode w₁ (e :: es) w₃

section

variable {mode : Mode} {w₁ w₂ w₃ : Walk}

theorem Run.append {es fs : List Event} (one : Run mode w₁ es w₂) (other : Run mode w₂ fs w₃) :
    Run mode w₁ (es ++ fs) w₃ := by
  induction one with
  | done => exact other
  | step first _ ih => exact .step first (ih other)

theorem Run.split {es fs : List Event} (run : Run mode w₁ (es ++ fs) w₃) :
    ∃ w₂, Run mode w₁ es w₂ ∧ Run mode w₂ fs w₃ := by
  induction es generalizing w₁ with
  | nil => exact ⟨w₁, .done w₁, run⟩
  | cons e es ih =>
      cases run with
      | step first rest =>
          obtain ⟨w₂, front, back⟩ := ih rest
          exact ⟨w₂, .step first front, back⟩

/-- What one event keeps of the past, all events keep. -/
theorem Run.invariant {Inv : List Event → Walk → Prop}
    (kept : ∀ past w e w', Inv past w → Step mode w e w' → Inv (past ++ [e]) w')
    {es past : List Event} (run : Run mode w₁ es w₂) (holds : Inv past w₁) :
    Inv (past ++ es) w₂ := by
  induction run generalizing past with
  | done => rwa [List.append_nil]
  | step first _ ih =>
      rw [List.append_cons]
      exact ih (kept _ _ _ _ holds first)

end

/-! ## The events of a value -/

mutual
/-- The events of a walk through a value at a slot. -/
def events (mode : Mode) (slot : Slot) : Sample → Walk → List Event
  | .array items, w => elementEvents mode slot.element items w
  | .object ms, w =>
    let (id, w) := w.objectId mode slot
    .number slot id :: (memberEvents mode slot ms w ++ [.contribute id (members mode slot ms w).1])
  | .null, _ | .bool _, _ | .number _, _ | .string _, _ => []

def elementEvents (mode : Mode) (slot : Slot) : List Sample → Walk → List Event
  | [], _ => []
  | item :: rest, w =>
    events mode slot item w ++ elementEvents mode slot rest (value mode slot item w).2

def memberEvents (mode : Mode) (slot : Slot) : List (String × Sample) → Walk → List Event
  | [], _ => []
  | (key, item) :: rest, w =>
    events mode (slot.member key) item w ++
      memberEvents mode slot rest (value mode (slot.member key) item w).2
end

mutual
theorem value_run (mode : Mode) (slot : Slot) (sample : Sample) (w : Walk) :
    Run mode w (events mode slot sample w) (value mode slot sample w).2 := by
  cases sample with
  | null | bool | number | string =>
      rw [events, value]
      exact .done w
  | array items =>
      rw [events, value_array]
      exact elements_run mode slot.element items w
  | object ms =>
      rw [events, value_object]
      have inside := members_run mode slot ms (w.objectId mode slot).2
      exact .step (.number w slot) (inside.append (.step (.contribute _ _ _) (.done _)))
termination_by sizeOf sample

theorem elements_run (mode : Mode) (slot : Slot) (items : List Sample) (w : Walk) :
    Run mode w (elementEvents mode slot items w) (elements mode slot items w).2 := by
  cases items with
  | nil =>
      rw [elementEvents, elements]
      exact .done w
  | cons item rest =>
      rw [elementEvents, elements_cons]
      exact (value_run mode slot item w).append (elements_run mode slot rest _)
termination_by sizeOf items

theorem members_run (mode : Mode) (slot : Slot) (ms : List (String × Sample)) (w : Walk) :
    Run mode w (memberEvents mode slot ms w) (members mode slot ms w).2 := by
  match ms with
  | [] =>
      rw [memberEvents, members]
      exact .done w
  | (key, item) :: rest =>
      rw [memberEvents, members_cons]
      exact (value_run mode (slot.member key) item w).append (members_run mode slot rest _)
termination_by sizeOf ms
end

mutual
/-- Objects are met in document order, each before its parts. -/
theorem filterMap_slot?_events (mode : Mode) (slot : Slot) (sample : Sample) (w : Walk) :
    (events mode slot sample w).filterMap Event.slot? = Sample.objectSlots slot sample := by
  cases sample with
  | null | bool | number | string => simp [events, Sample.objectSlots]
  | array items =>
      rw [events, Sample.objectSlots, filterMap_slot?_elementEvents]
  | object ms =>
      rw [events, Sample.objectSlots]
      simp [Event.slot?, filterMap_slot?_memberEvents mode slot ms]
termination_by sizeOf sample

theorem filterMap_slot?_elementEvents (mode : Mode) (slot : Slot) (items : List Sample) (w : Walk) :
    (elementEvents mode slot items w).filterMap Event.slot? = Sample.itemSlots slot items := by
  cases items with
  | nil => simp [elementEvents, Sample.itemSlots]
  | cons item rest =>
      rw [elementEvents, Sample.itemSlots, List.filterMap_append,
        filterMap_slot?_events mode slot item, filterMap_slot?_elementEvents mode slot rest]
termination_by sizeOf items

theorem filterMap_slot?_memberEvents (mode : Mode) (slot : Slot) (ms : List (String × Sample))
    (w : Walk) :
    (memberEvents mode slot ms w).filterMap Event.slot? = Sample.memberSlots slot ms := by
  match ms with
  | [] => simp [memberEvents, Sample.memberSlots]
  | (key, item) :: rest =>
      rw [memberEvents, Sample.memberSlots, List.filterMap_append,
        filterMap_slot?_events mode (slot.member key) item,
        filterMap_slot?_memberEvents mode slot rest]
termination_by sizeOf ms
end

/-! ## Slots that are not met -/

theorem lookup_objectId (mode : Mode) {slot other : Slot} (different : other ≠ slot) (w : Walk) :
    (w.objectId mode slot).2.ids.lookup other = w.ids.lookup other := by
  cases mode with
  | unified =>
      cases found : w.ids.lookup slot with
      | some id => rw [objectId_known found]
      | none => rw [objectId_new found, lookup_cons_of_ne _ _ different]
  | separate =>
      simp only [objectId]
      split <;> rfl

/-- What is known of a slot stays as it is until an object is met there. -/
theorem Run.lookup_ids {mode : Mode} {w₁ w₂ : Walk} {es : List Event} (run : Run mode w₁ es w₂)
    {slot : Slot} (unmet : slot ∉ es.filterMap Event.slot?) :
    w₂.ids.lookup slot = w₁.ids.lookup slot := by
  induction run with
  | done => rfl
  | step first _ ih =>
      cases first with
      | number other =>
          simp only [List.filterMap_cons, Event.slot?, List.mem_cons, not_or] at unmet
          rw [ih unmet.2, lookup_objectId mode unmet.1]
      | contribute => exact ih unmet

theorem lookup_value (mode : Mode) {slot other : Slot} {sample : Sample}
    (unmet : other ∉ Sample.objectSlots slot sample) (w : Walk) :
    (value mode slot sample w).2.ids.lookup other = w.ids.lookup other := by
  rw [← filterMap_slot?_events mode slot sample w] at unmet
  exact (value_run mode slot sample w).lookup_ids unmet

end Walk
end GoSchema
