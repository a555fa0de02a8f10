import GoSchema.Proofs.Schema.Events

/-! # What types mention

The number of a struct is handed out, and mentioned in types, before the struct is recorded. In the
events of a whole value both are complete: every object that is met is also left, and no type
mentions anything but objects that are met.
-/

namespace GoSchema

/-! ## Numbers that a type mentions -/

/-- Does the number of a struct occur in a type, at any depth? -/
def Ty.Mentions (id : TypeId) : Ty → Prop
  | .scalar _ | .any => False
  | .named i => i = id
  | .seq element => element.Mentions id

def Shape.Mentions (id : TypeId) : Shape → Prop
  | .scalar _ => False
  | .alias type => type.Mentions id
  | .struct fields => ∃ field ∈ fields, field.type.Mentions id

/-- A common type mentions nothing new. -/
theorem Ty.exists_mentions_of_unifyAll {id : TypeId} {ts : List Ty}
    (mentions : (unifyAll ts).Mentions id) : ∃ t ∈ ts, t.Mentions id := by
  cases ts with
  | nil => exact mentions.elim
  | cons t rest =>
      rcases unifyAll_eq_any_or (List.mem_cons_self : t ∈ t :: rest) with any | same
      · rw [any] at mentions
        exact mentions.elim
      · exact ⟨t, List.mem_cons_self, same ▸ mentions⟩

theorem exists_mentions_of_mergeFields {id : TypeId} {contributions : List (List Field)}
    {field : Field} (merged : field ∈ mergeFields contributions)
    (mentions : field.type.Mentions id) :
    ∃ own ∈ contributions, ∃ f ∈ own, f.type.Mentions id := by
  rw [mergeFields_eq] at merged
  obtain ⟨key, -, rfl⟩ := List.mem_map.mp merged
  obtain ⟨t, typed, inside⟩ := Ty.exists_mentions_of_unifyAll mentions
  obtain ⟨f, present, rfl⟩ := List.mem_map.mp typed
  obtain ⟨own, member, here⟩ := List.mem_flatten.mp (List.mem_of_mem_filter present)
  exact ⟨own, member, f, here, inside⟩

/-! ## Events that complete each other -/

/-- Is a number given to some object? -/
def Met (id : TypeId) (es : List Event) : Prop :=
  ∃ slot, .number slot id ∈ es

/-- Is something recorded under a number? -/
def Left (id : TypeId) (es : List Event) : Prop :=
  ∃ own, .contribute id own ∈ es

theorem met_append {id : TypeId} {es fs : List Event} :
    Met id (es ++ fs) ↔ Met id es ∨ Met id fs := by
  simp only [Met, List.mem_append, exists_or]

theorem left_append {id : TypeId} {es fs : List Event} :
    Left id (es ++ fs) ↔ Left id es ∨ Left id fs := by
  simp only [Left, List.mem_append, exists_or]

/-- Every object that is met is left, and only numbers of such objects are mentioned. -/
structure Settled (es : List Event) : Prop where
  left : ∀ id, Met id es ↔ Left id es
  mentioned : ∀ i own, .contribute i own ∈ es → ∀ f ∈ own, ∀ id, f.type.Mentions id → Met id es

theorem settled_nil : Settled [] :=
  ⟨fun _ => by simp [Met, Left], nofun⟩

theorem Settled.append {es fs : List Event} (one : Settled es) (other : Settled fs) :
    Settled (es ++ fs) where
  left id := by rw [met_append, left_append, one.left, other.left]
  mentioned i own member f present id mentions := by
    rw [met_append]
    rcases List.mem_append.mp member with front | back
    · exact .inl (one.mentioned i own front f present id mentions)
    · exact .inr (other.mentioned i own back f present id mentions)

/-- An object is left after its parts, and it mentions nothing but these. -/
theorem Settled.object {es : List Event} (inside : Settled es) (slot : Slot) (id : TypeId)
    {own : List Field} (mentions : ∀ f ∈ own, ∀ i, f.type.Mentions i → Met i es) :
    Settled (.number slot id :: (es ++ [.contribute id own])) where
  left i := by
    have met : Met i (.number slot id :: (es ++ [.contribute id own])) ↔ i = id ∨ Met i es := by
      simp [Met, exists_or]
    have left : Left i (.number slot id :: (es ++ [.contribute id own])) ↔ Left i es ∨ i = id := by
      simp [Left, exists_or]
    rw [met, left, inside.left, or_comm]
  mentioned i other member f present j mentioned := by
    have below : Met j es := by
      simp only [List.mem_cons, reduceCtorEq, List.mem_append, Event.contribute.injEq,
        List.not_mem_nil, or_false, false_or] at member
      rcases member with earlier | ⟨-, rfl⟩
      · exact inside.mentioned i other earlier f present j mentioned
      · exact mentions f present j mentioned
    obtain ⟨slot', given⟩ := below
    exact ⟨slot', by simp [given]⟩

namespace Walk

mutual
/-- The type of a value mentions objects of the value alone. -/
theorem value_settled (mode : Mode) (slot : Slot) (sample : Sample) (w : Walk) :
    Settled (events mode slot sample w) ∧
      ∀ id, (value mode slot sample w).1.Mentions id → Met id (events mode slot sample w) := by
  cases sample with
  | null | bool | number | string =>
      rw [events, value]
      exact ⟨settled_nil, fun _ mentions => mentions.elim⟩
  | array items =>
      rw [events, value_array]
      obtain ⟨settled, mentioned⟩ := elements_settled mode slot.element items w
      refine ⟨settled, fun id mentions => ?_⟩
      obtain ⟨t, typed, inside⟩ := Ty.exists_mentions_of_unifyAll mentions
      exact mentioned t typed id inside
  | object ms =>
      rw [events, value_object]
      obtain ⟨settled, mentioned⟩ := members_settled mode slot ms (w.objectId mode slot).2
      refine ⟨settled.object slot _ mentioned, ?_⟩
      rintro id rfl
      exact ⟨slot, List.mem_cons_self⟩
termination_by sizeOf sample

theorem elements_settled (mode : Mode) (slot : Slot) (items : List Sample) (w : Walk) :
    Settled (elementEvents mode slot items w) ∧
      ∀ t ∈ (elements mode slot items w).1, ∀ id, t.Mentions id →
        Met id (elementEvents mode slot items w) := by
  cases items with
  | nil =>
      rw [elementEvents, elements]
      exact ⟨settled_nil, nofun⟩
  | cons item rest =>
      rw [elementEvents, elements_cons]
      obtain ⟨first, typed⟩ := value_settled mode slot item w
      obtain ⟨others, later⟩ := elements_settled mode slot rest (value mode slot item w).2
      refine ⟨first.append others, List.forall_mem_cons.mpr ⟨?_, ?_⟩⟩
      · exact fun id mentions => met_append.mpr (.inl (typed id mentions))
      · exact fun t member id mentions => met_append.mpr (.inr (later t member id mentions))
termination_by sizeOf items

theorem members_settled (mode : Mode) (slot : Slot) (ms : List (String × Sample)) (w : Walk) :
    Settled (memberEvents mode slot ms w) ∧
      ∀ f ∈ (members mode slot ms w).1, ∀ id, f.type.Mentions id →
        Met id (memberEvents mode slot ms w) := by
  match ms with
  | [] =>
      rw [memberEvents, members]
      exact ⟨settled_nil, nofun⟩
  | (key, item) :: rest =>
      rw [memberEvents, members_cons]
      obtain ⟨first, typed⟩ := value_settled mode (slot.member key) item w
      obtain ⟨others, later⟩ :=
        members_settled mode slot rest (value mode (slot.member key) item w).2
      refine ⟨first.append others, List.forall_mem_cons.mpr ⟨?_, ?_⟩⟩
      · exact fun id mentions => met_append.mpr (.inl (typed id mentions))
      · exact fun f member id mentions => met_append.mpr (.inr (later f member id mentions))
termination_by sizeOf ms
end

end Walk
end GoSchema
