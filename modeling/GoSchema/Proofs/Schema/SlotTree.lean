import GoSchema.Proofs.Schema.Events

/-! # Inference on a tree of slots

Inference that takes a tree of slots along instead of a list of numbered ones. An object looks for
its number in the slot that it stands at, and a slot is added to the tree when it is first stepped
into. In the separate mode a number is taken out of its slot when it is used; only the one of the
root is ever found.
-/

namespace GoSchema

/-- A slot with its number, if it has one, and the slots one step below it. Of several entries for a
key the first one counts. -/
inductive SlotTree where
  | node (id : Option TypeId) (fields : List (String × SlotTree)) (items : Option SlotTree)

namespace SlotTree

def empty : SlotTree :=
  .node none [] none

def root : SlotTree :=
  .node (some TypeId.root) [] none

def id? : SlotTree → Option TypeId
  | .node id _ _ => id

def setId (id : Option TypeId) : SlotTree → SlotTree
  | .node _ fields items => .node id fields items

/-- The slot that a step leads to, a new one if there is none yet. -/
def child : Step → SlotTree → SlotTree
  | .key name, .node _ fields _ => (fields.lookup name).getD empty
  | .item, .node _ _ items => items.getD empty

def setChild : Step → SlotTree → SlotTree → SlotTree
  | .key name, .node id fields items, new => .node id ((name, new) :: fields) items
  | .item, .node id fields _, new => .node id fields (some new)

/-- What is carried along beside the tree. -/
structure Context where
  next : TypeId
  draft : Draft

namespace Context

def start : Context :=
  ⟨TypeId.root + 1, []⟩

def alloc (c : Context) : TypeId × Context :=
  (c.next, { c with next := c.next + 1 })

def contribute (id : TypeId) (fields : List Field) (c : Context) : Context :=
  { c with draft := c.draft.contribute id fields }

end Context

def objectId (mode : Mode) (tree : SlotTree) (c : Context) : TypeId × SlotTree × Context :=
  match mode, tree.id? with
  | .unified, some id => (id, tree, c)
  | .unified, none =>
    let (id, c) := c.alloc
    (id, tree.setId (some id), c)
  | .separate, some id => (id, tree.setId none, c)
  | .separate, none =>
    let (id, c) := c.alloc
    (id, tree, c)

mutual
/-- The type of a value at the root of a tree, with the tree and the context behind it. -/
def infer (mode : Mode) : Sample → SlotTree → Context → Ty × SlotTree × Context
  | .null, tree, c => (.any, tree, c)
  | .bool _, tree, c => (.scalar .bool, tree, c)
  | .number x, tree, c => (.scalar (.ofNumber x), tree, c)
  | .string _, tree, c => (.scalar .string, tree, c)
  | .array items, tree, c =>
    let (types, below, c) := inferElements mode items (tree.child .item) c
    (.seq (.unifyAll types), tree.setChild .item below, c)
  | .object ms, tree, c =>
    let (id, tree, c) := objectId mode tree c
    let (fields, tree, c) := inferMembers mode ms tree c
    (.named id, tree, c.contribute id fields)

def inferElements (mode : Mode) : List Sample → SlotTree → Context → List Ty × SlotTree × Context
  | [], tree, c => ([], tree, c)
  | item :: rest, tree, c =>
    let (type, tree, c) := infer mode item tree c
    let (types, tree, c) := inferElements mode rest tree c
    (type :: types, tree, c)

def inferMembers (mode : Mode) :
    List (String × Sample) → SlotTree → Context → List Field × SlotTree × Context
  | [], tree, c => ([], tree, c)
  | (key, item) :: rest, tree, c =>
    let (type, below, c) := infer mode item (tree.child (.key key)) c
    let (fields, tree, c) := inferMembers mode rest (tree.setChild (.key key) below) c
    (⟨key, type, false⟩ :: fields, tree, c)
end

def draft (mode : Mode) (sample : Sample) : Draft :=
  match infer mode sample root Context.start with
  | (.named _, _, c) => c.draft
  | (.scalar s, _, c) => c.draft.declare TypeId.root (.scalar s)
  | (type, _, c) => c.draft.declare TypeId.root (.alias type)

/-! ## The slots of a tree -/

/-- The slot that some steps lead to, the last one first. -/
def descend : Slot → SlotTree → SlotTree
  | [], tree => tree
  | step :: slot, tree => (tree.descend slot).child step

theorem descend_concat (slot : Slot) (step : Step) (tree : SlotTree) :
    tree.descend (slot ++ [step]) = (tree.child step).descend slot := by
  induction slot with
  | nil => rfl
  | cons last slot ih => rw [List.cons_append, descend, ih, descend]

theorem child_empty (step : Step) : empty.child step = empty := by
  cases step <;> rfl

theorem child_root (step : Step) : root.child step = empty := by
  cases step <;> rfl

theorem descend_empty (slot : Slot) : empty.descend slot = empty := by
  induction slot with
  | nil => rfl
  | cons step slot ih => rw [descend, ih, child_empty]

variable (step : Step) (tree new : SlotTree)

@[simp]
theorem id?_setId (id : Option TypeId) : (tree.setId id).id? = id := by
  cases tree
  rfl

@[simp]
theorem child_setId (id : Option TypeId) : (tree.setId id).child step = tree.child step := by
  cases tree
  cases step <;> rfl

@[simp]
theorem id?_setChild : (tree.setChild step new).id? = tree.id? := by
  cases tree
  cases step <;> rfl

@[simp]
theorem child_setChild : (tree.setChild step new).child step = new := by
  cases tree
  cases step <;> simp [setChild, child]

theorem child_setChild_of_ne {other : Step} (different : other ≠ step) :
    (tree.setChild step new).child other = tree.child other := by
  cases tree
  cases step with
  | item =>
      cases other with
      | item => exact absurd rfl different
      | key => rfl
  | key name =>
      cases other with
      | item => rfl
      | key name' =>
          have apart : name' ≠ name := fun same => different (congrArg Step.key same)
          simp only [setChild, child, lookup_cons_of_ne _ _ apart]

end SlotTree

namespace Walk

/-! ## What a walk knows of a slot -/

/-- The number that an object at a slot has before it is met. -/
def known (mode : Mode) (slot : Slot) (w : Walk) : Option TypeId :=
  match mode with
  | .unified => w.ids.lookup slot
  | .separate => if slot = Slot.root then some TypeId.root else none

theorem known_start (mode : Mode) (slot : Slot) :
    start.known mode slot = if slot = Slot.root then some TypeId.root else none := by
  cases mode with
  | unified => exact lookup_start slot
  | separate => rfl

theorem known_objectId (mode : Mode) {slot other : Slot} (different : other ≠ slot) (w : Walk) :
    (w.objectId mode slot).2.known mode other = w.known mode other := by
  cases mode with
  | unified => exact lookup_objectId .unified different w
  | separate => rfl

/-- A walk changes nothing outside of the slots below its own. -/
theorem known_value (mode : Mode) {slot other : Slot} (apart : ¬slot <:+ other) (sample : Sample)
    (w : Walk) : (value mode slot sample w).2.known mode other = w.known mode other := by
  cases mode with
  | unified =>
      refine lookup_value .unified (fun met => apart ?_) w
      obtain ⟨visit, visited, rfl⟩ := List.mem_map.mp ((Sample.mem_objectSlots _ _ _).mp met)
      exact Sample.suffix_of_mem_visits visited
  | separate => rfl

theorem known_elements (mode : Mode) {slot other : Slot} (apart : ¬slot <:+ other)
    (items : List Sample) (w : Walk) :
    (elements mode slot items w).2.known mode other = w.known mode other := by
  induction items generalizing w with
  | nil => rw [elements]
  | cons item rest ih => rw [elements_cons, ih, known_value mode apart]

def context (w : Walk) : SlotTree.Context :=
  ⟨w.next, w.draft⟩

end Walk

namespace SlotTree

open Walk (known context known_start known_objectId known_value known_elements)

/-! ## Trees that stand for the numbers of a walk -/

/-- The slots of a tree have the numbers that a walk knows of, from a slot on. -/
def Tracks (mode : Mode) (slot : Slot) (tree : SlotTree) (w : Walk) : Prop :=
  ∀ below, (tree.descend below).id? = w.known mode (below ++ slot)

/-- The same for the slots below it only. -/
def TracksBelow (mode : Mode) (slot : Slot) (tree : SlotTree) (w : Walk) : Prop :=
  ∀ step : Step, (tree.child step).Tracks mode (step :: slot) w

section

variable {mode : Mode} {slot : Slot} {tree : SlotTree} {w : Walk}

theorem tracks_iff :
    tree.Tracks mode slot w ↔ tree.id? = w.known mode slot ∧ tree.TracksBelow mode slot w := by
  constructor
  · refine fun tracks => ⟨tracks [], fun step below => ?_⟩
    rw [← descend_concat, tracks, List.append_assoc, List.singleton_append]
  · rintro ⟨here, deeper⟩ below
    obtain rfl | ⟨above, step, rfl⟩ := List.eq_nil_or_concat' below
    · exact here
    · rw [descend_concat, deeper step, List.append_assoc, List.singleton_append]

theorem tracks_root (mode : Mode) : root.Tracks mode Slot.root Walk.start := by
  refine tracks_iff.mpr ⟨by rw [known_start, if_pos rfl]; rfl, fun step below => ?_⟩
  have deeper : below ++ [step] ≠ Slot.root := by simp [Slot.root]
  have unknown := known_start mode (below ++ [step])
  rw [if_neg deeper] at unknown
  rw [child_root, descend_empty]
  exact unknown.symm

/-- What a walk does at one step leaves the numbers at the other ones. -/
theorem TracksBelow.setChild {w' : Walk} {step : Step} {new : SlotTree}
    (tracks : tree.TracksBelow mode slot w) (entered : new.Tracks mode (step :: slot) w')
    (kept : ∀ other, ¬step :: slot <:+ other → w'.known mode other = w.known mode other) :
    (tree.setChild step new).TracksBelow mode slot w' := by
  intro other
  by_cases same : other = step
  · subst same
    rwa [child_setChild]
  · rw [child_setChild_of_ne _ _ _ same]
    intro below
    rw [tracks other below, kept]
    exact fun under => same (Sample.step_eq_of_suffix under).symm

theorem objectId_eq (tracks : tree.Tracks mode slot w) :
    ∃ tree', objectId mode tree w.context =
        ((w.objectId mode slot).1, tree', (w.objectId mode slot).2.context) ∧
      tree'.TracksBelow mode slot (w.objectId mode slot).2 ∧
      (slot ≠ Slot.root → tree'.id? = (w.objectId mode slot).2.known mode slot) := by
  have here : tree.id? = w.known mode slot := tracks []
  have deeper : tree.TracksBelow mode slot (w.objectId mode slot).2 := by
    intro step below
    rw [(tracks_iff.mp tracks).2 step below, known_objectId]
    intro same
    exact Sample.not_cons_suffix_self step slot ⟨below, same⟩
  cases mode with
  | unified =>
      cases found : w.ids.lookup slot with
      | some id =>
          have numbered : tree.id? = some id := here.trans found
          rw [Walk.objectId_known found] at deeper ⊢
          exact ⟨tree, by simp only [objectId, numbered], deeper, fun _ => here⟩
      | none =>
          have unnumbered : tree.id? = none := here.trans found
          rw [Walk.objectId_new found] at deeper ⊢
          refine ⟨tree.setId (some w.next), ?_, ?_, fun _ => ?_⟩
          · simp only [objectId, unnumbered]
            rfl
          · intro step
            rw [child_setId]
            exact deeper step
          · rw [id?_setId]
            exact List.lookup_cons_self.symm
  | separate =>
      by_cases atRoot : slot = Slot.root
      · subst atRoot
        have numbered : tree.id? = some TypeId.root := here
        refine ⟨tree.setId none, ?_, ?_, fun below => absurd rfl below⟩
        · simp only [objectId, numbered]
          rfl
        · intro step
          rw [child_setId]
          exact deeper step
      · have unnumbered : tree.id? = none := here.trans (if_neg atRoot)
        rw [Walk.objectId_separate atRoot] at deeper ⊢
        refine ⟨tree, ?_, deeper, fun _ => here⟩
        simp only [objectId, unnumbered]
        rfl

end

/-! ## The same types and drafts -/

mutual
/-- A tree that tracks a walk gives the same type and the same draft, and goes on tracking it. The
root is left out behind an object: in the separate mode its number is gone by then. -/
theorem infer_eq (mode : Mode) (slot : Slot) (sample : Sample) {tree : SlotTree} {w : Walk}
    (tracks : tree.Tracks mode slot w) :
    ∃ tree', infer mode sample tree w.context =
        ((Walk.value mode slot sample w).1, tree', (Walk.value mode slot sample w).2.context) ∧
      (slot ≠ Slot.root → tree'.Tracks mode slot (Walk.value mode slot sample w).2) := by
  cases sample with
  | null | bool | number | string =>
      rw [infer, Walk.value]
      exact ⟨tree, rfl, fun _ => tracks⟩
  | array items =>
      have kept (other : Slot) (apart : ¬slot.element <:+ other) :=
        known_elements mode apart items w
      obtain ⟨below, run, entered⟩ := inferElements_eq mode (List.cons_ne_nil _ _) items
        ((tracks_iff.mp tracks).2 .item)
      rw [Walk.value_array]
      refine ⟨tree.setChild .item below, by simp only [infer, run]; rfl, fun _ => ?_⟩
      refine tracks_iff.mpr ⟨?_, (tracks_iff.mp tracks).2.setChild entered kept⟩
      rw [id?_setChild, kept slot (Sample.not_cons_suffix_self _ slot)]
      exact tracks []
  | object ms =>
      obtain ⟨tree₁, numbered, tracks₁, id₁⟩ := objectId_eq tracks
      obtain ⟨tree₂, run, same, tracks₂, kept⟩ := inferMembers_eq mode slot ms tracks₁
      rw [Walk.value_object]
      refine ⟨tree₂, by simp only [infer, numbered, run]; rfl, fun below => ?_⟩
      exact tracks_iff.mpr ⟨(same.trans (id₁ below)).trans kept.symm, tracks₂⟩
termination_by sizeOf sample

theorem inferElements_eq (mode : Mode) {slot : Slot} (below : slot ≠ Slot.root)
    (items : List Sample) {tree : SlotTree} {w : Walk} (tracks : tree.Tracks mode slot w) :
    ∃ tree', inferElements mode items tree w.context =
        ((Walk.elements mode slot items w).1, tree', (Walk.elements mode slot items w).2.context) ∧
      tree'.Tracks mode slot (Walk.elements mode slot items w).2 := by
  cases items with
  | nil =>
      rw [inferElements, Walk.elements]
      exact ⟨tree, rfl, tracks⟩
  | cons item rest =>
      obtain ⟨tree₁, first, tracks₁⟩ := infer_eq mode slot item tracks
      obtain ⟨tree₂, others, tracks₂⟩ := inferElements_eq mode below rest (tracks₁ below)
      rw [Walk.elements_cons]
      exact ⟨tree₂, by simp only [inferElements, first, others], tracks₂⟩
termination_by sizeOf items

theorem inferMembers_eq (mode : Mode) (slot : Slot) (ms : List (String × Sample))
    {tree : SlotTree} {w : Walk} (tracks : tree.TracksBelow mode slot w) :
    ∃ tree', inferMembers mode ms tree w.context =
        ((Walk.members mode slot ms w).1, tree', (Walk.members mode slot ms w).2.context) ∧
      tree'.id? = tree.id? ∧ tree'.TracksBelow mode slot (Walk.members mode slot ms w).2 ∧
      (Walk.members mode slot ms w).2.known mode slot = w.known mode slot := by
  match ms with
  | [] =>
      rw [inferMembers, Walk.members]
      exact ⟨tree, rfl, rfl, tracks, rfl⟩
  | (key, item) :: rest =>
      have kept (other : Slot) (apart : ¬slot.member key <:+ other) :=
        known_value mode apart item w
      obtain ⟨child, first, entered⟩ := infer_eq mode (slot.member key) item (tracks (.key key))
      have tracks₁ := tracks.setChild (entered (List.cons_ne_nil _ _)) kept
      obtain ⟨tree₂, others, same, tracks₂, kept₂⟩ := inferMembers_eq mode slot rest tracks₁
      rw [Walk.members_cons]
      refine ⟨tree₂, by simp only [inferMembers, first, others], by rw [same, id?_setChild],
        tracks₂, ?_⟩
      exact kept₂.trans (kept slot (Sample.not_cons_suffix_self _ slot))
termination_by sizeOf ms
end

/-- The tree of slots and the list of numbered ones lead to the same draft. -/
theorem draft_eq (mode : Mode) (sample : Sample) : draft mode sample = sample.draft mode := by
  obtain ⟨tree, run, -⟩ := infer_eq mode Slot.root sample (tracks_root mode)
  have start : Context.start = Walk.start.context := rfl
  rw [draft, start, run, Sample.draft]
  cases Walk.value mode Slot.root sample Walk.start with
  | mk type w => cases type <;> rfl

end SlotTree

end GoSchema
