import GoSchema.Proofs.Schema.Walk

/-! # Keys of a sample

The declarations of a sample have fields for the keys of its objects and for no other keys,
whatever the mode.
-/

namespace GoSchema

/-- Some object anywhere in a sample has this key. -/
inductive Sample.HasKey (key : String) : Sample → Prop where
  | here {ms item} (member : (key, item) ∈ ms) : HasKey key (.object ms)
  | item {items item} (member : item ∈ items) (below : HasKey key item) : HasKey key (.array items)
  | member {ms name item} (member : (name, item) ∈ ms) (below : HasKey key item) :
      HasKey key (.object ms)

theorem Sample.hasKey_array {key : String} {items : List Sample} :
    (Sample.array items).HasKey key ↔ ∃ item ∈ items, item.HasKey key := by
  constructor
  · intro has
    cases has with
    | item member below => exact ⟨_, member, below⟩
  · intro has
    obtain ⟨item, member, below⟩ := has
    exact .item member below

theorem Sample.hasKey_object {key : String} {ms : List (String × Sample)} :
    (Sample.object ms).HasKey key ↔ (∃ m ∈ ms, m.2.HasKey key) ∨ key ∈ ms.map (·.1) := by
  constructor
  · intro has
    cases has with
    | here member => exact .inr (List.mem_map.mpr ⟨_, member, rfl⟩)
    | member member below => exact .inl ⟨_, member, below⟩
  · intro has
    rcases has with ⟨m, member, below⟩ | own
    · exact .member member below
    · obtain ⟨m, member, rfl⟩ := List.mem_map.mp own
      exact .here member

/-- The fields of a struct. The other bodies have none. -/
def Shape.fields : Shape → List Field
  | .struct fields => fields
  | .scalar _ | .alias _ => []

/-- Some declaration has a field for this key. -/
def DeclaresKey (decls : List Decl) (key : String) : Prop :=
  ∃ decl ∈ decls, ∃ field ∈ decl.shape.fields, field.key = key

namespace Draft

def HasKey (draft : Draft) (key : String) : Prop :=
  ∃ id own, draft.Records id own ∧ key ∈ own.map (·.key)

theorem hasKey_contribute {draft : Draft} (structs : draft.Structs)
    (ascending : draft.Ascending) (id : TypeId) (own : List Field) (key : String) :
    (draft.contribute id own).HasKey key ↔ draft.HasKey key ∨ key ∈ own.map (·.key) := by
  constructor
  · intro has
    obtain ⟨j, other, ⟨contributions, found, member⟩, named⟩ := has
    rw [lookup_contribute ascending] at found
    split at found
    · cases before : draft.lookup id with
      | none =>
          rw [before] at found
          cases found
          rw [List.mem_singleton.mp member] at named
          exact .inr named
      | some entry =>
          obtain ⟨earlier, rfl, -⟩ := structs id entry before
          rw [before] at found
          cases found
          rcases List.mem_append.mp member with old | new
          · exact .inl ⟨id, other, ⟨earlier, before, old⟩, named⟩
          · rw [List.mem_singleton.mp new] at named
            exact .inr named
    · exact .inl ⟨j, other, ⟨contributions, found, member⟩, named⟩
  · intro has
    rcases has with ⟨j, other, recorded, named⟩ | named
    · exact ⟨j, other, recorded.contribute ascending id own, named⟩
    · exact ⟨id, own, records_contribute structs ascending id own, named⟩

theorem declaresKey_decls {draft : Draft} (ascending : draft.Ascending) {key : String} :
    DeclaresKey draft.decls key ↔
      ∃ id e, draft.lookup id = some e ∧ ∃ field ∈ e.shape.fields, field.key = key := by
  constructor
  · intro declares
    obtain ⟨_, member, field, present, named⟩ := declares
    obtain ⟨⟨id, e⟩, entry, rfl⟩ := List.mem_map.mp member
    exact ⟨id, e, (mem_iff_lookup ascending).mp entry, field, present, named⟩
  · intro declares
    obtain ⟨id, e, found, field, present, named⟩ := declares
    have entry := (mem_iff_lookup ascending).mpr found
    exact ⟨_, List.mem_map.mpr ⟨(id, e), entry, rfl⟩, field, present, named⟩

theorem Structs.declaresKey {draft : Draft} (structs : draft.Structs)
    (ascending : draft.Ascending) {key : String} :
    DeclaresKey draft.decls key ↔ draft.HasKey key := by
  rw [declaresKey_decls ascending]
  constructor
  · intro declares
    obtain ⟨id, e, found, present⟩ := declares
    obtain ⟨contributions, rfl, -⟩ := structs id e found
    obtain ⟨own, member, named⟩ := exists_mergeFields_key.mp present
    exact ⟨id, own, ⟨contributions, found, member⟩, named⟩
  · intro has
    obtain ⟨id, own, ⟨contributions, found, member⟩, named⟩ := has
    exact ⟨id, _, found, exists_mergeFields_key.mpr ⟨own, member, named⟩⟩

/-- A body without fields for the root changes nothing about that. -/
theorem Structs.declaresKey_declare {draft : Draft} (structs : draft.Structs)
    (ascending : draft.Ascending) (free : draft.lookup TypeId.root = none) {shape : Shape}
    (empty : shape.fields = []) {key : String} :
    DeclaresKey (draft.declare TypeId.root shape).decls key ↔ draft.HasKey key := by
  have found (id : TypeId) : List.lookup id (draft.declare TypeId.root shape) =
      if id = TypeId.root then some (.plain shape) else draft.lookup id :=
    lookup_update ascending TypeId.root id _
  have declared : (draft.declare TypeId.root shape).Ascending := ascending.update
  rw [← structs.declaresKey ascending, declaresKey_decls ascending, declaresKey_decls declared]
  constructor
  · intro declares
    obtain ⟨id, e, entry, field, present, named⟩ := declares
    rw [found] at entry
    split at entry
    · cases entry
      rw [Entry.shape, empty] at present
      cases present
    · exact ⟨id, e, entry, field, present, named⟩
  · intro declares
    obtain ⟨id, e, entry, present⟩ := declares
    refine ⟨id, e, ?_, present⟩
    rw [found, if_neg, entry]
    rintro rfl
    rw [free] at entry
    cases entry

end Draft

namespace Walk

mutual
theorem value_hasKey (mode : Mode) (slot : Slot) (sample : Sample) {w : Walk}
    (ordered : sample.Ordered) (valid : w.Valid) (key : String) :
    (value mode slot sample w).2.draft.HasKey key ↔ w.draft.HasKey key ∨ sample.HasKey key := by
  cases sample with
  | null | bool | number | string =>
      rw [value]
      exact (or_iff_left nofun).symm
  | array items =>
      rw [value_array, Sample.hasKey_array]
      exact elements_hasKey mode slot items (by simpa only [Sample.Ordered] using ordered) valid key
  | object ms =>
      have below : Sample.OrderedMembers ms := by simpa only [Sample.Ordered] using ordered.2
      have identified := valid.objectId mode slot
      have grown := (members_grows mode slot ms below identified).1.valid
      have walked := members_hasKey mode slot ms below identified key
      rw [draft_objectId] at walked
      rw [value_object, contribute, Draft.hasKey_contribute grown.structs grown.ascending, walked,
        members_keys, Sample.hasKey_object, or_assoc]
termination_by sizeOf sample

theorem elements_hasKey (mode : Mode) (slot : Slot) (items : List Sample) {w : Walk}
    (ordered : Sample.OrderedItems items) (valid : w.Valid) (key : String) :
    (elements mode slot.element items w).2.draft.HasKey key ↔
      w.draft.HasKey key ∨ ∃ item ∈ items, item.HasKey key := by
  cases items with
  | nil => simp [elements]
  | cons item rest =>
      have grown := (value_grows mode slot.element item ordered.1 valid).1.valid
      rw [elements_cons, elements_hasKey mode slot rest ordered.2 grown key,
        value_hasKey mode slot.element item ordered.1 valid key, List.exists_mem_cons_iff, or_assoc]
termination_by sizeOf items

theorem members_hasKey (mode : Mode) (slot : Slot) (ms : List (String × Sample)) {w : Walk}
    (ordered : Sample.OrderedMembers ms) (valid : w.Valid) (key : String) :
    (members mode slot ms w).2.draft.HasKey key ↔
      w.draft.HasKey key ∨ ∃ m ∈ ms, m.2.HasKey key := by
  match ms, ordered with
  | [], _ => simp [members]
  | (name, item) :: rest, ordered =>
      have grown := (value_grows mode (slot.member name) item ordered.1 valid).1.valid
      rw [members_cons, members_hasKey mode slot rest ordered.2 grown key,
        value_hasKey mode (slot.member name) item ordered.1 valid key, List.exists_mem_cons_iff,
        or_assoc]
termination_by sizeOf ms
end

end Walk

/-- The declared fields are those of the keys of all objects. -/
theorem Sample.declaresKey_decls (mode : Mode) (sample : Sample) (ordered : sample.Ordered)
    (key : String) : DeclaresKey (sample.decls mode) key ↔ sample.HasKey key := by
  have none : ¬Walk.start.draft.HasKey key := by
    intro has
    obtain ⟨id, own, ⟨contributions, found, -⟩, -⟩ := has
    cases found
  have valid := (Walk.value_grows mode Slot.root sample ordered Walk.start_valid).1.valid
  have walked := Walk.value_hasKey mode Slot.root sample ordered Walk.start_valid key
  rw [or_iff_right none] at walked
  rw [← walked]
  cases sample with
  | object ms =>
      rw [decls, draft_of_object]
      exact valid.structs.declaresKey valid.ascending
  | array items =>
      have free := (Walk.elements_grows mode Slot.root items
        (by simpa only [Ordered] using ordered) Walk.start_valid).2
      rw [Walk.value_array] at valid ⊢
      have root : (Sample.array items).draft mode =
          (Walk.elements mode Slot.root.element items Walk.start).2.draft.declare TypeId.root
            (.alias (.seq (.unifyAll (Walk.elements mode Slot.root.element items
              Walk.start).1))) := by
        simp only [draft, Walk.value_array]
      rw [decls, root]
      exact valid.structs.declaresKey_declare valid.ascending free rfl
  | _ =>
      rw [Walk.value] at valid ⊢
      exact valid.structs.declaresKey_declare valid.ascending rfl rfl

end GoSchema
