import GoSchema.Proofs.Sample
import GoSchema.Schema.Inference
import GoSchema.Proofs.Schema.Draft
import GoSchema.Proofs.Schema.Merge

/-! # States of a walk

What holds of every state that a walk reaches, in both modes: the draft ascends and holds
structs only, and the number of the root is given to no other slot.
-/

namespace GoSchema

namespace Draft

/-- Is a field list among the contributions to a number? -/
def Records (draft : Draft) (id : TypeId) (own : List Field) : Prop :=
  ∃ contributions, draft.lookup id = some (.struct contributions) ∧ own ∈ contributions

/-- All entries are structs to which no object contributes a key twice. -/
def Structs (draft : Draft) : Prop :=
  ∀ id e, draft.lookup id = some e → ∃ contributions, e = .struct contributions ∧
    DistinctKeys contributions

theorem lookup_contribute {draft : Draft} (ascending : draft.Ascending) (id j : TypeId)
    (own : List Field) :
    List.lookup j (draft.contribute id own) =
      if j = id then some (((draft.lookup id).getD (.struct [])).contribute own)
      else draft.lookup j :=
  lookup_update ascending id j _

theorem Structs.contribute {draft : Draft} (structs : draft.Structs)
    (ascending : draft.Ascending) {own : List Field} (distinct : (own.map (·.key)).Nodup)
    (id : TypeId) : (draft.contribute id own).Structs := by
  intro j e found
  rw [lookup_contribute ascending] at found
  split at found
  · cases before : draft.lookup id with
    | none =>
        rw [before] at found
        refine ⟨[own], (Option.some.inj found).symm, ?_⟩
        intro fields member
        rwa [List.mem_singleton.mp member]
    | some entry =>
        obtain ⟨contributions, rfl, earlier⟩ := structs id entry before
        rw [before] at found
        refine ⟨contributions ++ [own], (Option.some.inj found).symm, ?_⟩
        intro fields member
        rcases List.mem_append.mp member with member | member
        · exact earlier fields member
        · rwa [List.mem_singleton.mp member]
  · exact structs j e found

theorem Records.contribute {draft : Draft} (ascending : draft.Ascending) {j : TypeId}
    {other : List Field} (recorded : draft.Records j other) (id : TypeId) (own : List Field) :
    (draft.contribute id own).Records j other := by
  obtain ⟨contributions, found, member⟩ := recorded
  rw [Records, lookup_contribute ascending]
  split
  · next same =>
      rw [← same, found]
      exact ⟨contributions ++ [own], rfl, List.mem_append_left _ member⟩
  · exact ⟨contributions, found, member⟩

theorem records_contribute {draft : Draft} (structs : draft.Structs)
    (ascending : draft.Ascending) (id : TypeId) (own : List Field) :
    (draft.contribute id own).Records id own := by
  rw [Records, lookup_contribute ascending, if_pos rfl]
  cases before : draft.lookup id with
  | none => exact ⟨[own], rfl, by simp⟩
  | some entry =>
      obtain ⟨contributions, rfl, -⟩ := structs id entry before
      exact ⟨contributions ++ [own], rfl, by simp⟩

end Draft

namespace Walk

/-! ## The parts of a walk -/

theorem value_array (mode : Mode) (slot : Slot) (items : List Sample) (w : Walk) :
    value mode slot (.array items) w =
      (.seq (.unifyAll (elements mode slot.element items w).1),
        (elements mode slot.element items w).2) := by
  rw [value]

theorem value_object (mode : Mode) (slot : Slot) (ms : List (String × Sample)) (w : Walk) :
    value mode slot (.object ms) w =
      (.named (w.objectId mode slot).1,
        (members mode slot ms (w.objectId mode slot).2).2.contribute (w.objectId mode slot).1
          (members mode slot ms (w.objectId mode slot).2).1) := by
  rw [value]

theorem elements_cons (mode : Mode) (slot : Slot) (item : Sample) (rest : List Sample) (w : Walk) :
    elements mode slot (item :: rest) w =
      ((value mode slot item w).1 :: (elements mode slot rest (value mode slot item w).2).1,
        (elements mode slot rest (value mode slot item w).2).2) := by
  rw [elements]

theorem members_cons (mode : Mode) (slot : Slot) (key : String) (item : Sample)
    (rest : List (String × Sample)) (w : Walk) :
    members mode slot ((key, item) :: rest) w =
      (⟨key, (value mode (slot.member key) item w).1, false⟩ ::
          (members mode slot rest (value mode (slot.member key) item w).2).1,
        (members mode slot rest (value mode (slot.member key) item w).2).2) := by
  rw [members]

theorem members_keys (mode : Mode) (slot : Slot) (ms : List (String × Sample)) (w : Walk) :
    (members mode slot ms w).1.map (·.key) = ms.map (·.1) := by
  induction ms generalizing w with
  | nil => rw [members]; rfl
  | cons m rest ih =>
      obtain ⟨key, item⟩ := m
      simp only [members_cons, List.map_cons, ih]

/-- What a walk contributes is not optional. -/
theorem members_required (mode : Mode) (slot : Slot) (ms : List (String × Sample)) (w : Walk) :
    ∀ f ∈ (members mode slot ms w).1, f.optional = false := by
  induction ms generalizing w with
  | nil =>
      rw [members]
      exact nofun
  | cons m rest ih =>
      obtain ⟨key, item⟩ := m
      rw [members_cons]
      exact List.forall_mem_cons.mpr ⟨rfl, ih _⟩

/-! ## The number of an object -/

theorem objectId_known {slot : Slot} {id : TypeId} {w : Walk}
    (found : w.ids.lookup slot = some id) : w.objectId .unified slot = (id, w) := by
  simp only [objectId, found]

theorem objectId_new {slot : Slot} {w : Walk} (found : w.ids.lookup slot = none) :
    w.objectId .unified slot =
      (w.next, { w with next := w.next + 1, ids := (slot, w.next) :: w.ids }) := by
  simp only [objectId, found, fresh]

theorem objectId_separate {slot : Slot} (below : slot ≠ Slot.root) (w : Walk) :
    w.objectId .separate slot = (w.next, { w with next := w.next + 1 }) :=
  if_neg below

/-- A root that is an object has its number already. -/
theorem objectId_root (mode : Mode) : start.objectId mode Slot.root = (TypeId.root, start) := by
  cases mode <;> rfl

/-- At the start only the root has a number. -/
theorem lookup_start (slot : Slot) :
    start.ids.lookup slot = if slot = Slot.root then some TypeId.root else none := by
  by_cases root : slot = Slot.root
  · rw [if_pos root, root]
    rfl
  · rw [if_neg root, start, lookup_cons_of_ne _ _ root]
    rfl

/-! ## What every state satisfies -/

structure Valid (w : Walk) : Prop where
  ascending : w.draft.Ascending
  structs : w.draft.Structs
  /-- The number of the root is taken. -/
  next : TypeId.root < w.next
  reserved : ∀ slot id, w.ids.lookup slot = some id → slot ≠ Slot.root → TypeId.root < id

theorem start_valid : start.Valid where
  ascending := Draft.ascending_nil
  structs := by simp [Draft.Structs, start]
  next := Nat.lt_succ_self _
  reserved slot id found other := by
    rw [lookup_start, if_neg other] at found
    cases found

theorem Valid.contribute {w : Walk} (valid : w.Valid) {own : List Field}
    (distinct : (own.map (·.key)).Nodup) (id : TypeId) : (w.contribute id own).Valid where
  ascending := valid.ascending.update
  structs := valid.structs.contribute valid.ascending distinct id
  next := valid.next
  reserved := valid.reserved

theorem draft_objectId (mode : Mode) (slot : Slot) (w : Walk) :
    (w.objectId mode slot).2.draft = w.draft := by
  cases mode <;> simp only [objectId] <;> split <;> rfl

theorem Valid.objectId {w : Walk} (valid : w.Valid) (mode : Mode) (slot : Slot) :
    (w.objectId mode slot).2.Valid := by
  have later : TypeId.root < w.next + 1 := Nat.lt_succ_of_lt valid.next
  cases mode with
  | unified =>
      simp only [Walk.objectId]
      split
      · exact valid
      · refine ⟨valid.ascending, valid.structs, later, ?_⟩
        intro other id found notRoot
        by_cases same : other = slot
        · subst same
          rw [show (fresh w).1 = w.next from rfl, List.lookup_cons_self] at found
          exact Option.some.inj found ▸ valid.next
        · rw [lookup_cons_of_ne _ _ same] at found
          exact valid.reserved other id found notRoot
  | separate =>
      simp only [Walk.objectId]
      split
      · exact valid
      · exact ⟨valid.ascending, valid.structs, later, valid.reserved⟩

theorem Valid.root_lt_objectId {w : Walk} (valid : w.Valid) (mode : Mode) {slot : Slot}
    (notRoot : slot ≠ Slot.root) : TypeId.root < (w.objectId mode slot).1 := by
  cases mode with
  | unified =>
      simp only [Walk.objectId]
      split
      · next id found => exact valid.reserved slot id found notRoot
      · exact valid.next
  | separate => simp only [Walk.objectId, if_neg notRoot]; exact valid.next

/-! ## What a walk leaves behind -/

/-- A later state: nothing that was recorded is lost. -/
structure Grows (w w' : Walk) : Prop where
  valid : w'.Valid
  records : ∀ id own, w.draft.Records id own → w'.draft.Records id own

/-- A later state with the same entry for the root. -/
def KeepsRoot (w w' : Walk) : Prop :=
  w'.draft.lookup TypeId.root = w.draft.lookup TypeId.root

theorem Grows.trans {w₁ w₂ w₃ : Walk} (first : Grows w₁ w₂) (second : Grows w₂ w₃) :
    Grows w₁ w₃ where
  valid := second.valid
  records id own recorded := second.records id own (first.records id own recorded)

theorem Valid.grows_objectId {w : Walk} (valid : w.Valid) (mode : Mode) (slot : Slot) :
    Grows w (w.objectId mode slot).2 where
  valid := valid.objectId mode slot
  records id own recorded := by rwa [draft_objectId]

theorem Valid.grows_contribute {w : Walk} (valid : w.Valid) {own : List Field}
    (distinct : (own.map (·.key)).Nodup) (id : TypeId) : Grows w (w.contribute id own) where
  valid := valid.contribute distinct id
  records _ _ recorded := recorded.contribute valid.ascending id own

theorem Valid.keepsRoot_contribute {w : Walk} (valid : w.Valid) {id : TypeId}
    (above : TypeId.root < id) (own : List Field) : KeepsRoot w (w.contribute id own) := by
  rw [KeepsRoot, Walk.contribute, Draft.lookup_contribute valid.ascending,
    if_neg (Nat.ne_of_lt above)]

mutual
theorem value_grows (mode : Mode) (slot : Slot) (sample : Sample) {w : Walk}
    (ordered : sample.Ordered) (valid : w.Valid) :
    Grows w (value mode slot sample w).2 ∧
      (slot ≠ Slot.root → KeepsRoot w (value mode slot sample w).2) := by
  cases sample with
  | null | bool | number | string =>
      rw [value]
      exact ⟨⟨valid, fun _ _ recorded => recorded⟩, fun _ => rfl⟩
  | array items =>
      rw [value_array]
      have walked := elements_grows mode slot items (by simpa only [Sample.Ordered] using ordered)
        valid
      exact ⟨walked.1, fun _ => walked.2⟩
  | object ms =>
      rw [value_object]
      have identified := valid.grows_objectId mode slot
      have walked := members_grows mode slot ms (by simpa only [Sample.Ordered] using ordered.2)
        identified.valid
      have distinct : ((members mode slot ms (w.objectId mode slot).2).1.map (·.key)).Nodup :=
        members_keys mode slot ms _ ▸ ordered.nodup_keys
      refine ⟨(identified.trans walked.1).trans (walked.1.valid.grows_contribute distinct _), ?_⟩
      intro notRoot
      have kept := walked.1.valid.keepsRoot_contribute (valid.root_lt_objectId mode notRoot)
        (members mode slot ms (w.objectId mode slot).2).1
      rw [KeepsRoot, kept, walked.2, draft_objectId]
termination_by sizeOf sample

theorem elements_grows (mode : Mode) (slot : Slot) (items : List Sample) {w : Walk}
    (ordered : Sample.OrderedItems items) (valid : w.Valid) :
    Grows w (elements mode slot.element items w).2 ∧
      KeepsRoot w (elements mode slot.element items w).2 := by
  cases items with
  | nil =>
      rw [elements]
      exact ⟨⟨valid, fun _ _ recorded => recorded⟩, rfl⟩
  | cons item rest =>
      rw [elements_cons]
      have first := value_grows mode slot.element item ordered.1 valid
      have others := elements_grows mode slot rest ordered.2 first.1.valid
      exact ⟨first.1.trans others.1, others.2.trans (first.2 (List.cons_ne_nil _ _))⟩
termination_by sizeOf items

theorem members_grows (mode : Mode) (slot : Slot) (ms : List (String × Sample)) {w : Walk}
    (ordered : Sample.OrderedMembers ms) (valid : w.Valid) :
    Grows w (members mode slot ms w).2 ∧ KeepsRoot w (members mode slot ms w).2 := by
  match ms, ordered with
  | [], _ =>
      rw [members]
      exact ⟨⟨valid, fun _ _ recorded => recorded⟩, rfl⟩
  | (key, item) :: rest, ordered =>
      rw [members_cons]
      have first := value_grows mode (slot.member key) item ordered.1 valid
      have others := members_grows mode slot rest ordered.2 first.1.valid
      exact ⟨first.1.trans others.1, others.2.trans (first.2 (List.cons_ne_nil _ _))⟩
termination_by sizeOf ms
end

end Walk

theorem Sample.draft_of_object (ms : List (String × Sample)) (mode : Mode) :
    (Sample.object ms).draft mode =
      (Walk.value mode Slot.root (.object ms) Walk.start).2.draft := by
  simp only [draft, Walk.value_object]

end GoSchema
