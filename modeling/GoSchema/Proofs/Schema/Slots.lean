import GoSchema.Proofs.Schema.Unification
import GoSchema.Schema.Draft
import GoSchema.Schema.Scalar
import GoSchema.Schema.Slot

/-! # What slots mean

Types can be read off a document without any walk: by looking at all values that one slot leads
to. Slots are numbered in the order in which their first objects occur, an object has the number
of its slot, and the struct of a slot is made of the field lists of the objects there.
-/

namespace GoSchema

namespace Sample

/-! ## Values at a slot -/

/-- The values that one step leads to. -/
def children : Step → Sample → List Sample
  | .item, .array items => items
  | .key name, .object ms => (ms.filter (·.1 = name)).map (·.2)
  | _, _ => []

/-- One step leads to the elements of an array or to a member of an object. -/
theorem children_cases {step : Step} {whole part : Sample} (inside : part ∈ whole.children step) :
    (∃ items, step = .item ∧ whole = .array items ∧ part ∈ items) ∨
      ∃ name ms, step = .key name ∧ whole = .object ms ∧ (name, part) ∈ ms := by
  cases whole with
  | null | bool | number | string => cases step <;> cases inside
  | array items =>
      cases step with
      | item => exact .inl ⟨items, rfl, rfl, inside⟩
      | key => cases inside
  | object ms =>
      cases step with
      | item => cases inside
      | key name =>
          obtain ⟨⟨key, item⟩, found, rfl⟩ := List.mem_map.mp inside
          obtain ⟨member, named⟩ := List.mem_filter.mp found
          obtain rfl : key = name := of_decide_eq_true named
          exact .inr ⟨key, ms, rfl, rfl, member⟩

/-- All values at a slot, in document order. -/
def valuesAt (sample : Sample) : Slot → List Sample
  | [] => [sample]
  | step :: slot => (sample.valuesAt slot).flatMap (children step)

def members? : Sample → Option (List (String × Sample))
  | .object ms => some ms
  | _ => none

theorem eq_object_of_members? {sample : Sample} {ms : List (String × Sample)}
    (object : sample.members? = some ms) : sample = .object ms := by
  cases sample with
  | object => rw [Option.some.inj object]
  | null | bool | number | string | array => cases object

/-- The members of each object at a slot, in document order. -/
def objectsAt (sample : Sample) (slot : Slot) : List (List (String × Sample)) :=
  (sample.valuesAt slot).filterMap members?

/-! ## Numbers of slots -/

mutual
/-- The slots of all objects in a value that stands at a slot, each object before its parts. -/
def objectSlots (slot : Slot) : Sample → List Slot
  | .array items => itemSlots slot.element items
  | .object ms => slot :: memberSlots slot ms
  | _ => []

def itemSlots (slot : Slot) : List Sample → List Slot
  | [] => []
  | item :: rest => objectSlots slot item ++ itemSlots slot rest

def memberSlots (slot : Slot) : List (String × Sample) → List Slot
  | [] => []
  | (key, item) :: rest => objectSlots (slot.member key) item ++ memberSlots slot rest
end

theorem itemSlots_eq_flatMap (slot : Slot) (items : List Sample) :
    itemSlots slot items = items.flatMap (objectSlots slot) := by
  induction items with
  | nil => rfl
  | cons item rest ih => rw [itemSlots, ih, List.flatMap_cons]

theorem memberSlots_eq_flatMap (slot : Slot) (ms : List (String × Sample)) :
    memberSlots slot ms = ms.flatMap fun m => objectSlots (slot.member m.1) m.2 := by
  induction ms with
  | nil => rfl
  | cons m rest ih => rw [memberSlots, ih, List.flatMap_cons]

/-- The root and the slots that hold objects, in the order of their first objects. -/
def slots (sample : Sample) : List Slot :=
  (Slot.root :: sample.objectSlots Slot.root).eraseDups

/-- The place of a slot among the numbered ones, counted from 1. -/
def slotNumber (sample : Sample) (slot : Slot) : TypeId :=
  sample.slots.idxOf slot + 1

/-! ## Types of values -/

mutual
/-- The type of a value at a slot, when slots have the given numbers. -/
def typeAt (number : Slot → TypeId) (slot : Slot) : Sample → Ty
  | .null => .any
  | .bool _ => .scalar .bool
  | .number x => .scalar (.ofNumber x)
  | .string _ => .scalar .string
  | .array items => .seq (Ty.common (typesAt number slot.element items))
  | .object _ => .named (number slot)

def typesAt (number : Slot → TypeId) (slot : Slot) : List Sample → List Ty
  | [] => []
  | item :: rest => typeAt number slot item :: typesAt number slot rest
end

theorem typesAt_eq_map (number : Slot → TypeId) (slot : Slot) (items : List Sample) :
    typesAt number slot items = items.map (typeAt number slot) := by
  induction items with
  | nil => rfl
  | cons item rest ih => rw [typesAt, ih, List.map_cons]

def fieldsAt (number : Slot → TypeId) (slot : Slot) (ms : List (String × Sample)) : List Field :=
  ms.map fun (key, item) => ⟨key, typeAt number (slot.member key) item, false⟩

theorem keys_fieldsAt (number : Slot → TypeId) (slot : Slot) (ms : List (String × Sample)) :
    (fieldsAt number slot ms).map (·.key) = ms.map (·.1) := by
  simp [fieldsAt, Function.comp_def]

/-! ## What is known of a document -/

/-- The struct of a slot: the fields of every object there. -/
def structAt (sample : Sample) (slot : Slot) : TypeId × Entry :=
  (sample.slotNumber slot,
    .struct ((sample.objectsAt slot).map (fieldsAt sample.slotNumber slot)))

/-- The body of a root that is no object. -/
def plainBody (type : Ty) : Shape :=
  match type with
  | .scalar s => .scalar s
  | other => .alias other

/-- One struct for each slot with objects, and a plain body for a root that is no object. -/
def slotDraft (sample : Sample) : Draft :=
  match sample with
  | .object _ => sample.slots.map sample.structAt
  | _ => (TypeId.root, .plain (plainBody (sample.typeAt sample.slotNumber Slot.root))) ::
      sample.slots.tail.map sample.structAt

/-! ## Objects in the order of recording -/

mutual
/-- The objects of a value, each with its slot and after its parts. -/
def visits (slot : Slot) : Sample → List (Slot × List (String × Sample))
  | .array items => itemVisits slot.element items
  | .object ms => memberVisits slot ms ++ [(slot, ms)]
  | _ => []

def itemVisits (slot : Slot) : List Sample → List (Slot × List (String × Sample))
  | [] => []
  | item :: rest => visits slot item ++ itemVisits slot rest

def memberVisits (slot : Slot) :
    List (String × Sample) → List (Slot × List (String × Sample))
  | [] => []
  | (key, item) :: rest => visits (slot.member key) item ++ memberVisits slot rest
end

mutual
/-- Every object is met once and recorded once, though not in the same order. -/
theorem objectSlots_perm (slot : Slot) (sample : Sample) :
    (objectSlots slot sample).Perm ((visits slot sample).map (·.1)) := by
  cases sample with
  | null | bool | number | string => simp [objectSlots, visits]
  | array items =>
      rw [objectSlots, visits]
      exact itemSlots_perm slot.element items
  | object ms =>
      rw [objectSlots, visits, List.map_append]
      exact ((memberSlots_perm slot ms).cons slot).trans (List.perm_append_singleton slot _).symm
termination_by sizeOf sample

theorem itemSlots_perm (slot : Slot) (items : List Sample) :
    (itemSlots slot items).Perm ((itemVisits slot items).map (·.1)) := by
  cases items with
  | nil =>
      rw [itemSlots, itemVisits]
      exact .nil
  | cons item rest =>
      rw [itemSlots, itemVisits, List.map_append]
      exact (objectSlots_perm slot item).append (itemSlots_perm slot rest)
termination_by sizeOf items

theorem memberSlots_perm (slot : Slot) (ms : List (String × Sample)) :
    (memberSlots slot ms).Perm ((memberVisits slot ms).map (·.1)) := by
  match ms with
  | [] =>
      rw [memberSlots, memberVisits]
      exact .nil
  | (key, item) :: rest =>
      rw [memberSlots, memberVisits, List.map_append]
      exact (objectSlots_perm (slot.member key) item).append (memberSlots_perm slot rest)
termination_by sizeOf ms
end

theorem mem_objectSlots (slot other : Slot) (sample : Sample) :
    other ∈ objectSlots slot sample ↔ other ∈ (visits slot sample).map (·.1) :=
  (objectSlots_perm slot sample).mem_iff

mutual
/-- Everything in a value lies below its slot. -/
theorem suffix_of_mem_visits {slot : Slot} {sample : Sample}
    {visit : Slot × List (String × Sample)} (member : visit ∈ visits slot sample) :
    slot <:+ visit.1 := by
  cases sample with
  | null | bool | number | string => simp [visits] at member
  | array items =>
      simp only [visits] at member
      exact (List.suffix_cons _ _).trans (suffix_of_mem_itemVisits member)
  | object ms =>
      simp only [visits, List.mem_append, List.mem_singleton] at member
      rcases member with below | rfl
      · obtain ⟨key, under⟩ := suffix_of_mem_memberVisits below
        exact (List.suffix_cons _ _).trans under
      · exact List.suffix_refl _
termination_by sizeOf sample

theorem suffix_of_mem_itemVisits {slot : Slot} {items : List Sample}
    {visit : Slot × List (String × Sample)} (member : visit ∈ itemVisits slot items) :
    slot <:+ visit.1 := by
  cases items with
  | nil => simp [itemVisits] at member
  | cons item rest =>
      simp only [itemVisits, List.mem_append] at member
      rcases member with here | later
      · exact suffix_of_mem_visits here
      · exact suffix_of_mem_itemVisits later
termination_by sizeOf items

theorem suffix_of_mem_memberVisits {slot : Slot} {ms : List (String × Sample)}
    {visit : Slot × List (String × Sample)} (member : visit ∈ memberVisits slot ms) :
    ∃ key, slot.member key <:+ visit.1 := by
  match ms, member with
  | [], member => simp [memberVisits] at member
  | (key, item) :: rest, member =>
      simp only [memberVisits, List.mem_append] at member
      rcases member with here | later
      · exact ⟨key, suffix_of_mem_visits here⟩
      · exact suffix_of_mem_memberVisits later
termination_by sizeOf ms
end

/-! ## Recorded objects of one slot -/

theorem valuesAt_concat (sample : Sample) (slot : Slot) (step : Step) :
    sample.valuesAt (slot ++ [step]) = (sample.children step).flatMap (·.valuesAt slot) := by
  induction slot with
  | nil => simp [valuesAt]
  | cons last slot ih => simp only [List.cons_append, valuesAt, ih, List.flatMap_assoc]

theorem objectsAt_concat (sample : Sample) (slot : Slot) (step : Step) :
    sample.objectsAt (slot ++ [step]) = (sample.children step).flatMap (·.objectsAt slot) := by
  simp only [objectsAt, valuesAt_concat, List.filterMap_flatMap]

/-- Only the way through one step leads to the slots below it. -/
theorem step_eq_of_suffix {slot below : Slot} {first step : Step}
    (under : first :: slot <:+ below ++ step :: slot) : first = step := by
  obtain ⟨before, equal⟩ := under
  have same : (before ++ [first]) ++ slot = (below ++ [step]) ++ slot := by simpa using equal
  simpa using congrArg List.getLast? (List.append_cancel_right same)

theorem not_cons_suffix_self (step : Step) (slot : Slot) : ¬ step :: slot <:+ slot := by
  intro under
  have shorter := under.length_le
  simp only [List.length_cons] at shorter
  omega

/-- What lies below one step is filtered out at another. -/
theorem filter_eq_nil_of_step {visited : List (Slot × List (String × Sample))} {slot below : Slot}
    {step : Step} (other : ∀ visit ∈ visited, ∃ first, first ≠ step ∧ first :: slot <:+ visit.1) :
    visited.filter (·.1 = below ++ step :: slot) = [] := by
  apply List.filter_eq_nil_iff.mpr
  intro visit member
  obtain ⟨first, different, under⟩ := other visit member
  simp only [decide_eq_true_eq]
  intro equal
  exact different (step_eq_of_suffix (equal ▸ under))

/-- What lies below any step is filtered out at the slot itself. -/
theorem filter_eq_nil_of_below {visited : List (Slot × List (String × Sample))} {slot : Slot}
    (below : ∀ visit ∈ visited, ∃ first : Step, first :: slot <:+ visit.1) :
    visited.filter (·.1 = slot) = [] := by
  apply List.filter_eq_nil_iff.mpr
  intro visit member
  obtain ⟨first, under⟩ := below visit member
  simp only [decide_eq_true_eq]
  intro equal
  exact not_cons_suffix_self first slot (equal ▸ under)

mutual
/-- The objects recorded for a slot are the objects at that slot, in document order. -/
theorem filter_visits (slot below : Slot) (sample : Sample) :
    (visits slot sample).filter (·.1 = below ++ slot) =
      (sample.objectsAt below).map (below ++ slot, ·) := by
  cases sample with
  | null | bool | number | string =>
      rcases List.eq_nil_or_concat below with rfl | ⟨below, step, rfl⟩
      · rfl
      · rw [List.concat_eq_append, objectsAt_concat]
        simp [visits, children]
  | array items =>
      have deeper : ∀ visit ∈ itemVisits slot.element items, .item :: slot <:+ visit.1 :=
        fun visit member => suffix_of_mem_itemVisits member
      simp only [visits]
      rcases List.eq_nil_or_concat below with rfl | ⟨below, step, rfl⟩
      · exact filter_eq_nil_of_below fun visit member => ⟨.item, deeper visit member⟩
      · rw [List.concat_eq_append, objectsAt_concat, List.append_assoc]
        cases step with
        | item => exact filter_itemVisits slot.element below items
        | key name =>
            simp only [List.singleton_append, children, List.flatMap_nil, List.map_nil]
            exact filter_eq_nil_of_step fun visit member =>
              ⟨.item, by simp, deeper visit member⟩
  | object ms =>
      have deeper : ∀ visit ∈ memberVisits slot ms, ∃ name, .key name :: slot <:+ visit.1 :=
        fun visit member => suffix_of_mem_memberVisits member
      simp only [visits, List.filter_append]
      rcases List.eq_nil_or_concat below with rfl | ⟨below, step, rfl⟩
      · rw [List.nil_append, filter_eq_nil_of_below fun visit member =>
          (deeper visit member).imp' Step.key fun _ under => under]
        simp [objectsAt, valuesAt, members?]
      · have longer : ¬ slot = below ++ step :: slot := by
          intro equal
          exact not_cons_suffix_self step slot ⟨below, equal.symm⟩
        rw [List.concat_eq_append, objectsAt_concat, List.append_assoc, List.singleton_append]
        simp only [longer, decide_false, List.filter_cons_of_neg, List.filter_nil,
          List.append_nil, Bool.false_eq_true, not_false_eq_true]
        cases step with
        | item =>
            simp only [children, List.flatMap_nil, List.map_nil]
            exact filter_eq_nil_of_step fun visit member =>
              (deeper visit member).imp' Step.key fun _ under => ⟨by simp, under⟩
        | key name => exact filter_memberVisits slot below name ms
termination_by sizeOf sample

theorem filter_itemVisits (slot below : Slot) (items : List Sample) :
    (itemVisits slot items).filter (·.1 = below ++ slot) =
      (items.flatMap (·.objectsAt below)).map (below ++ slot, ·) := by
  cases items with
  | nil => rfl
  | cons item rest =>
      rw [itemVisits, List.filter_append, filter_visits slot below item,
        filter_itemVisits slot below rest, List.flatMap_cons, List.map_append]
termination_by sizeOf items

theorem filter_memberVisits (slot below : Slot) (name : String) (ms : List (String × Sample)) :
    (memberVisits slot ms).filter (·.1 = below ++ slot.member name) =
      (((ms.filter (·.1 = name)).map (·.2)).flatMap (·.objectsAt below)).map
        (below ++ slot.member name, ·) := by
  match ms with
  | [] => rfl
  | (key, item) :: rest =>
      rw [memberVisits, List.filter_append, filter_memberVisits slot below name rest]
      by_cases same : key = name
      · rw [same, filter_visits (slot.member name) below item]
        simp
      · have elsewhere : (visits (slot.member key) item).filter
            (·.1 = below ++ slot.member name) = [] :=
          filter_eq_nil_of_step fun visit member =>
            ⟨.key key, by simpa using same, suffix_of_mem_visits member⟩
        rw [elsewhere]
        simp [same]
termination_by sizeOf ms
end

end Sample
end GoSchema
