import GoSchema.Proofs.Schema.Walk

/-! # Samples fit their declarations

A declared type says which values it accepts. Whatever the mode, the declarations inferred for a
sample accept it: every object fits the struct that its field list was merged into, however much
later contributions have weakened that struct.
-/

namespace GoSchema

def bodyOf (decls : List Decl) (id : TypeId) : Option Shape :=
  (decls.find? (·.id = id)).map (·.shape)

/-- Does a type accept a sample, under the declarations that its names refer to? -/
def Accepts (decls : List Decl) : Ty → Sample → Prop
  | .any, _ => True
  | .scalar s, sample => Scalar.ofSample? sample = some s
  | .seq type, .array items => ∀ item ∈ items, Accepts decls type item
  | .named id, .object ms => ∃ fields, bodyOf decls id = some (.struct fields) ∧
      (∀ m ∈ ms, ∃ f ∈ fields, f.key = m.1 ∧ Accepts decls f.type m.2) ∧
      ∀ f ∈ fields, f.optional = false → ∃ m ∈ ms, m.1 = f.key
  | _, _ => False
termination_by _ sample => sizeOf sample
decreasing_by
  · have smaller := List.sizeOf_lt_of_mem ‹item ∈ items›
    simp only [Sample.array.sizeOf_spec]
    omega
  · have smaller := List.sizeOf_lt_of_mem ‹m ∈ ms›
    obtain ⟨key, item⟩ := m
    simp only [Prod.mk.sizeOf_spec] at smaller
    simp only [Sample.object.sizeOf_spec]
    omega

/-- Does the body of a declaration accept a sample? -/
def Shape.Accepts (decls : List Decl) : Shape → Sample → Prop
  | .scalar s, sample => Scalar.ofSample? sample = some s
  | .alias type, sample => GoSchema.Accepts decls type sample
  | .struct fields, .object ms =>
      (∀ m ∈ ms, ∃ f ∈ fields, f.key = m.1 ∧ GoSchema.Accepts decls f.type m.2) ∧
      ∀ f ∈ fields, f.optional = false → ∃ m ∈ ms, m.1 = f.key
  | .struct _, _ => False

theorem accepts_any (decls : List Decl) (sample : Sample) : Accepts decls .any sample := by
  simp only [Accepts]

theorem accepts_scalar {decls : List Decl} {s : Scalar} {sample : Sample} :
    Accepts decls (.scalar s) sample ↔ Scalar.ofSample? sample = some s := by
  simp only [Accepts]

theorem accepts_seq {decls : List Decl} {type : Ty} {items : List Sample} :
    Accepts decls (.seq type) (.array items) ↔ ∀ item ∈ items, Accepts decls type item := by
  simp only [Accepts]

/-- A name accepts what the struct declared under it accepts. -/
theorem accepts_named {decls : List Decl} {id : TypeId} {ms : List (String × Sample)} :
    Accepts decls (.named id) (.object ms) ↔
      ∃ fields, bodyOf decls id = some (.struct fields) ∧
        (Shape.struct fields).Accepts decls (.object ms) := by
  simp only [Accepts, Shape.Accepts]

/-- Weakening a type to `any` keeps what it accepts. -/
theorem Accepts.weaken {decls : List Decl} {t u : Ty} {sample : Sample}
    (accepted : Accepts decls t sample) (weaker : u = .any ∨ u = t) : Accepts decls u sample := by
  rcases weaker with rfl | rfl
  · exact accepts_any decls sample
  · exact accepted

/-! ## Declarations that take in a draft -/

/-- Every recorded field list fits the struct declared under its number. -/
def Covers (decls : List Decl) (draft : Draft) : Prop :=
  ∀ id own, draft.Records id own → ∃ fields, bodyOf decls id = some (.struct fields) ∧
    (∀ f ∈ own, ∃ g ∈ fields, g.key = f.key ∧ (g.type = .any ∨ g.type = f.type)) ∧
    ∀ g ∈ fields, g.optional = false → ∃ f ∈ own, f.key = g.key

theorem Covers.earlier {decls : List Decl} {w w' : Walk} (covers : Covers decls w'.draft)
    (grows : Walk.Grows w w') : Covers decls w.draft :=
  fun id own recorded => covers id own (grows.records id own recorded)

theorem bodyOf_decls (draft : Draft) (id : TypeId) :
    bodyOf draft.decls id = (draft.lookup id).map Entry.shape := by
  induction draft with
  | nil => rfl
  | cons head rest ih =>
      obtain ⟨i, e⟩ := head
      by_cases same : id = i
      · subst same
        simp [bodyOf, Draft.decls]
      · rw [lookup_cons_of_ne _ _ same, ← ih]
        simp [bodyOf, Draft.decls, Ne.symm same]

/-- Merging takes in everything that has been recorded. -/
theorem covers_decls {draft final : Draft} (structs : draft.Structs)
    (kept : ∀ id own, draft.Records id own → final.lookup id = draft.lookup id) :
    Covers final.decls draft := by
  intro id own recorded
  have ⟨contributions, found, member⟩ := recorded
  obtain ⟨_, ⟨⟩, distinct⟩ := structs id _ found
  refine ⟨mergeFields contributions, ?_, ?_, ?_⟩
  · rw [bodyOf_decls, kept id own recorded, found]
    rfl
  · intro f present
    exact exists_mergeFields member present
  · intro g merged required
    exact mem_of_mergeFields_required distinct merged required member

/-! ## Every value fits its type -/

theorem accepts_object {decls : List Decl} {draft : Draft} (covers : Covers decls draft)
    {id : TypeId} {own : List Field} (recorded : draft.Records id own)
    {ms : List (String × Sample)} (sameKeys : own.map (·.key) = ms.map (·.1))
    (described : ∀ m ∈ ms, ∃ f ∈ own, f.key = m.1 ∧ Accepts decls f.type m.2) :
    Accepts decls (.named id) (.object ms) := by
  obtain ⟨fields, body, weakened, required⟩ := covers id own recorded
  refine accepts_named.mpr ⟨fields, body, ?_, ?_⟩
  · intro m member
    obtain ⟨f, present, key, accepted⟩ := described m member
    obtain ⟨g, merged, sameKey, weaker⟩ := weakened f present
    exact ⟨g, merged, sameKey.trans key, accepted.weaken weaker⟩
  · intro g merged notOptional
    obtain ⟨f, present, sameKey⟩ := required g merged notOptional
    have named : g.key ∈ ms.map (·.1) :=
      sameKeys ▸ sameKey ▸ List.mem_map.mpr ⟨f, present, rfl⟩
    simpa using named

namespace Walk

mutual
theorem value_accepted (mode : Mode) (slot : Slot) (sample : Sample) {w : Walk}
    (ordered : sample.Ordered) (valid : w.Valid) {decls : List Decl}
    (covers : Covers decls (value mode slot sample w).2.draft) :
    Accepts decls (value mode slot sample w).1 sample := by
  cases sample with
  | null => rw [value]; exact accepts_any _ _
  | bool | number | string => rw [value]; exact accepts_scalar.mpr rfl
  | array items =>
      rw [value_array] at covers ⊢
      apply accepts_seq.mpr
      intro item member
      obtain ⟨type, typed, accepted⟩ := elements_accepted mode slot items
        (by simpa only [Sample.Ordered] using ordered) valid covers item member
      exact accepted.weaken (Ty.unifyAll_eq_any_or typed)
  | object ms =>
      rw [value_object] at covers ⊢
      have below : Sample.OrderedMembers ms := by simpa only [Sample.Ordered] using ordered.2
      have identified := valid.objectId mode slot
      have walked := (members_grows mode slot ms below identified).1
      have distinct : ((members mode slot ms (w.objectId mode slot).2).1.map (·.key)).Nodup :=
        members_keys mode slot ms _ ▸ ordered.nodup_keys
      have recorded := Draft.records_contribute walked.valid.structs walked.valid.ascending
        (w.objectId mode slot).1 (members mode slot ms (w.objectId mode slot).2).1
      apply accepts_object covers recorded (members_keys mode slot ms _)
      exact members_accepted mode slot ms below identified
        (covers.earlier (walked.valid.grows_contribute distinct _))
termination_by sizeOf sample

theorem elements_accepted (mode : Mode) (slot : Slot) (items : List Sample) {w : Walk}
    (ordered : Sample.OrderedItems items) (valid : w.Valid) {decls : List Decl}
    (covers : Covers decls (elements mode slot.element items w).2.draft) :
    ∀ item ∈ items, ∃ type ∈ (elements mode slot.element items w).1, Accepts decls type item := by
  cases items with
  | nil => simp
  | cons first rest =>
      rw [elements_cons] at covers ⊢
      have grown := (value_grows mode slot.element first ordered.1 valid).1
      have others := (elements_grows mode slot rest ordered.2 grown.valid).1
      intro item member
      rcases List.mem_cons.mp member with here | later
      · rw [here]
        exact ⟨_, List.mem_cons_self,
          value_accepted mode slot.element first ordered.1 valid (covers.earlier others)⟩
      · obtain ⟨type, typed, accepted⟩ :=
          elements_accepted mode slot rest ordered.2 grown.valid covers item later
        exact ⟨type, List.mem_cons_of_mem _ typed, accepted⟩
termination_by sizeOf items

theorem members_accepted (mode : Mode) (slot : Slot) (ms : List (String × Sample)) {w : Walk}
    (ordered : Sample.OrderedMembers ms) (valid : w.Valid) {decls : List Decl}
    (covers : Covers decls (members mode slot ms w).2.draft) :
    ∀ m ∈ ms, ∃ f ∈ (members mode slot ms w).1, f.key = m.1 ∧ Accepts decls f.type m.2 := by
  match ms, ordered, covers with
  | [], _, _ => simp
  | (key, item) :: rest, ordered, covers =>
      rw [members_cons] at covers ⊢
      have grown := (value_grows mode (slot.member key) item ordered.1 valid).1
      have others := (members_grows mode slot rest ordered.2 grown.valid).1
      intro m member
      rcases List.mem_cons.mp member with here | later
      · rw [here]
        exact ⟨_, List.mem_cons_self, rfl,
          value_accepted mode (slot.member key) item ordered.1 valid (covers.earlier others)⟩
      · obtain ⟨f, present, accepted⟩ :=
          members_accepted mode slot rest ordered.2 grown.valid covers m later
        exact ⟨f, List.mem_cons_of_mem _ present, accepted⟩
termination_by sizeOf ms
end

end Walk

/-! ## The whole sample -/

/-- A plain body for the root leaves the structs as they are. -/
theorem accepts_declared {sample : Sample} {w : Walk} (valid : w.Valid)
    (free : w.draft.lookup TypeId.root = none) (shape : Shape)
    (accepted : ∀ decls, Covers decls w.draft → shape.Accepts decls sample) :
    ∃ body, bodyOf (w.draft.declare TypeId.root shape).decls TypeId.root = some body ∧
      body.Accepts (w.draft.declare TypeId.root shape).decls sample := by
  have found (id : TypeId) : List.lookup id (w.draft.declare TypeId.root shape) =
      if id = TypeId.root then some (.plain shape) else w.draft.lookup id :=
    Draft.lookup_update valid.ascending TypeId.root id _
  refine ⟨shape, ?_, accepted _ (covers_decls valid.structs ?_)⟩
  · rw [bodyOf_decls, found, if_pos rfl]
    rfl
  · intro id own recorded
    rw [found, if_neg]
    rintro rfl
    obtain ⟨contributions, present, -⟩ := recorded
    rw [free] at present
    cases present

/-- The declarations of a sample accept it at the root. -/
theorem decls_accept (mode : Mode) (sample : Sample) (ordered : sample.Ordered) :
    ∃ body, bodyOf (sample.decls mode) TypeId.root = some body ∧
      body.Accepts (sample.decls mode) sample := by
  have grown := (Walk.value_grows mode Slot.root sample ordered Walk.start_valid).1
  have fits {decls : List Decl}
      (covers : Covers decls (Walk.value mode Slot.root sample Walk.start).2.draft) :=
    Walk.value_accepted mode Slot.root sample ordered Walk.start_valid covers
  cases sample with
  | null =>
      rw [Walk.value] at grown
      exact accepts_declared grown.valid rfl (.alias .any) fun _ _ => accepts_any _ _
  | bool | number | string =>
      rw [Walk.value] at grown
      exact accepts_declared grown.valid rfl (.scalar _) fun _ _ => rfl
  | array items =>
      rw [Walk.value_array] at grown fits
      have kept := (Walk.elements_grows mode Slot.root items
        (by simpa only [Sample.Ordered] using ordered) Walk.start_valid).2
      have free := kept.trans (show List.lookup TypeId.root Walk.start.draft = none from rfl)
      have root : (Sample.array items).draft mode =
          (Walk.elements mode Slot.root.element items Walk.start).2.draft.declare TypeId.root
            (.alias (.seq (.unifyAll (Walk.elements mode Slot.root.element items
              Walk.start).1))) := by
        simp only [Sample.draft, Walk.value_array]
      rw [Sample.decls, root]
      exact accepts_declared grown.valid free _ fun _ covers => fits covers
  | object ms =>
      have root : (Sample.object ms).draft mode =
          (Walk.value mode Slot.root (.object ms) Walk.start).2.draft := by
        simp only [Sample.draft, Walk.value_object]
      rw [Sample.decls, root]
      have accepted := fits (covers_decls grown.valid.structs fun _ _ _ => rfl)
      have type : (Walk.value mode Slot.root (.object ms) Walk.start).1 = .named TypeId.root := by
        rw [Walk.value_object, Walk.objectId_root]
      rw [type] at accepted
      obtain ⟨fields, body, struct⟩ := accepts_named.mp accepted
      exact ⟨.struct fields, body, struct⟩

/-- Objects in nested arrays, with keys that come, go and change their types. -/
def unevenArrays : Sample :=
  .array [.array [.object [("a", .null), ("b", .object [])]],
    .array [.object [("a", .array [.bool true])]], .string ""]

theorem decls_accept_unevenArrays : unevenArrays.Ordered ∧
    ∃ body, bodyOf (unevenArrays.decls .unified) TypeId.root = some body ∧
      body.Accepts (unevenArrays.decls .unified) unevenArrays := by
  have ordered : unevenArrays.Ordered := by
    simp only [unevenArrays, Sample.Ordered, Sample.OrderedItems, Sample.OrderedMembers]
    decide
  exact ⟨ordered, decls_accept .unified unevenArrays ordered⟩

end GoSchema
