import GoSchema.Proofs.Schema.SlotDecls
import Mathlib.Data.List.Forall2

/-! # One more array element

An element at the end of an array is met last. Slots that are numbered keep their numbers, and at
each of them there are the same objects followed by further ones, so what is declared for a slot can
only be weakened: types to `any`, fields to optional ones.
-/

namespace GoSchema

/-- What further objects may do to a body: types become `any`, fields become optional, and the
fields with new keys are optional. -/
inductive Shape.Weakened : Shape → Shape → Prop where
  | alias {t u : Ty} (element : u = t ∨ u = .any) : Weakened (.alias (.seq t)) (.alias (.seq u))
  | struct {fields others : List Field}
      (kept : ∀ f ∈ fields, ∃ g ∈ others, g.key = f.key ∧ (g.type = f.type ∨ g.type = .any) ∧
        (f.optional = true → g.optional = true))
      (new : ∀ g ∈ others, (∀ f ∈ fields, f.key ≠ g.key) → g.optional = true) :
      Weakened (.struct fields) (.struct others)

/-- The same declaration with a weaker body. -/
structure Decl.Weakened (decl other : Decl) : Prop where
  id : other.id = decl.id
  shape : decl.shape.Weakened other.shape

/-! ## Further contributions -/

theorem weakened_mergeFields {contributions more : List (List Field)}
    (nonempty : contributions ≠ []) (distinct : DistinctKeys (contributions ++ more)) :
    (Shape.struct (mergeFields contributions)).Weakened
      (.struct (mergeFields (contributions ++ more))) := by
  have distinctBefore : DistinctKeys contributions :=
    fun own member => distinct own (List.mem_append_left _ member)
  refine .struct ?_ ?_
  · rw [mergeFields_of_distinct distinctBefore, mergeFields_of_distinct distinct]
    intro f merged
    obtain ⟨key, known, rfl⟩ := List.mem_map.mp merged
    have still : key ∈ keysOf (contributions ++ more).flatten := by
      obtain ⟨f, present, named⟩ := mem_keysOf.mp known
      rw [List.flatten_append]
      exact mem_keysOf.mpr ⟨f, List.mem_append_left _ present, named⟩
    have some : typesOf key contributions.flatten ≠ [] := fun none => typesOf_eq_nil.mp none known
    refine ⟨_, List.mem_map.mpr ⟨key, still, rfl⟩, rfl, ?_, ?_⟩
    · rw [List.flatten_append, typesOf_append]
      exact Ty.unifyAll_append_eq_or some _
    · simp only [decide_eq_true_eq]
      exact fun ⟨own, member, lacking⟩ => ⟨own, List.mem_append_left _ member, lacking⟩
  · intro g merged unknown
    -- Without an object from before, nothing would lack the new key.
    obtain ⟨own, first⟩ := List.exists_mem_of_ne_nil _ nonempty
    have lacking : g.key ∉ own.map (·.key) := by
      intro named
      obtain ⟨f, before, same⟩ := exists_mergeFields_key.mpr ⟨own, first, named⟩
      exact unknown f before same
    rw [mergeFields_of_distinct distinct] at merged
    obtain ⟨key, -, rfl⟩ := List.mem_map.mp merged
    exact decide_eq_true ⟨own, List.mem_append_left _ first, lacking⟩

namespace Sample

/-! ## Numbers that matter -/

mutual
/-- A type depends on the numbers of the objects in the value alone. -/
theorem typeAt_congr {number other : Slot → TypeId} (slot : Slot) (sample : Sample)
    (same : ∀ s ∈ objectSlots slot sample, number s = other s) :
    typeAt number slot sample = typeAt other slot sample := by
  cases sample with
  | null | bool | number | string => rfl
  | array items =>
      rw [objectSlots] at same
      rw [typeAt, typeAt, typesAt_congr slot.element items same]
  | object ms =>
      rw [objectSlots] at same
      rw [typeAt, typeAt, same slot List.mem_cons_self]
termination_by sizeOf sample

theorem typesAt_congr {number other : Slot → TypeId} (slot : Slot) (items : List Sample)
    (same : ∀ s ∈ itemSlots slot items, number s = other s) :
    typesAt number slot items = typesAt other slot items := by
  cases items with
  | nil => rfl
  | cons item rest =>
      rw [itemSlots, List.forall_mem_append] at same
      rw [typesAt, typesAt, typeAt_congr slot item same.1, typesAt_congr slot rest same.2]
termination_by sizeOf items
end

theorem fieldsAt_congr {number other : Slot → TypeId} {slot : Slot} {ms : List (String × Sample)}
    (same : ∀ s ∈ memberSlots slot ms, number s = other s) :
    fieldsAt number slot ms = fieldsAt other slot ms := by
  refine List.map_congr_left fun m member => ?_
  have inside : ∀ s ∈ objectSlots (slot.member m.1) m.2, number s = other s := by
    intro s here
    rw [memberSlots_eq_flatMap] at same
    exact same s (List.mem_flatMap.mpr ⟨m, member, here⟩)
  simp only [typeAt_congr _ _ inside]

/-- The objects of a part are objects of the whole. -/
theorem objectSlots_child {slot : Slot} {step : Step} {whole part : Sample}
    (inside : part ∈ whole.children step) :
    objectSlots (step :: slot) part ⊆ objectSlots slot whole := by
  intro s here
  rcases children_cases inside with ⟨items, rfl, rfl, member⟩ | ⟨name, ms, rfl, rfl, member⟩
  · rw [objectSlots, itemSlots_eq_flatMap]
    exact List.mem_flatMap.mpr ⟨part, member, here⟩
  · rw [objectSlots, memberSlots_eq_flatMap]
    exact List.mem_cons_of_mem _ (List.mem_flatMap.mpr ⟨(name, part), member, here⟩)

theorem objectSlots_of_mem_valuesAt {sample part : Sample} {slot : Slot}
    (here : part ∈ sample.valuesAt slot) :
    objectSlots slot part ⊆ objectSlots Slot.root sample := by
  induction slot generalizing part with
  | nil => rw [List.mem_singleton.mp here]; exact List.Subset.refl _
  | cons step slot ih =>
      obtain ⟨whole, above, inside⟩ := List.mem_flatMap.mp here
      exact List.Subset.trans (objectSlots_child inside) (ih above)

/-! ## The longer array -/

theorem slots_concat (items : List Sample) (x : Sample) :
    (Sample.array items).slots <+: (Sample.array (items ++ [x])).slots := by
  simp only [slots, objectSlots, itemSlots_eq_flatMap, List.flatMap_append]
  rw [← List.cons_append, List.eraseDups_append]
  exact List.prefix_append _ _

theorem slotNumber_concat {items : List Sample} (x : Sample) {slot : Slot}
    (known : slot ∈ (Sample.array items).slots) :
    (Sample.array (items ++ [x])).slotNumber slot = (Sample.array items).slotNumber slot :=
  Slot.numberIn_of_prefix (slots_concat items x) known

theorem objectsAt_concat_item (items : List Sample) (x : Sample) (slot : Slot) :
    ∃ more, (Sample.array (items ++ [x])).objectsAt slot =
      (Sample.array items).objectsAt slot ++ more := by
  rcases List.eq_nil_or_concat slot with rfl | ⟨below, step, rfl⟩
  · exact ⟨[], rfl⟩
  · rw [List.concat_eq_append, objectsAt_concat, objectsAt_concat]
    cases step with
    | item =>
        simp only [children, List.flatMap_append]
        exact ⟨_, rfl⟩
    | key => exact ⟨[], rfl⟩

/-- Fields that were contributed keep their types. -/
theorem contributions_concat (items : List Sample) (x : Sample) (slot : Slot) :
    ((Sample.array items).objectsAt slot).map
        (fieldsAt (Sample.array (items ++ [x])).slotNumber slot) =
      ((Sample.array items).objectsAt slot).map
        (fieldsAt (Sample.array items).slotNumber slot) := by
  refine List.map_congr_left fun ms here => fieldsAt_congr fun s below => ?_
  obtain ⟨part, found, object⟩ := List.mem_filterMap.mp here
  obtain rfl := eq_object_of_members? object
  have inside : s ∈ objectSlots slot (.object ms) := by
    rw [objectSlots]
    exact List.mem_cons_of_mem _ below
  have met := objectSlots_of_mem_valuesAt found inside
  exact slotNumber_concat x (List.mem_eraseDups.mpr (List.mem_cons_of_mem _ met))

theorem typesAt_concat (items : List Sample) (x : Sample) :
    typesAt (Sample.array (items ++ [x])).slotNumber Slot.root.element items =
      typesAt (Sample.array items).slotNumber Slot.root.element items := by
  refine typesAt_congr _ items fun s below => slotNumber_concat x ?_
  exact List.mem_eraseDups.mpr (List.mem_cons_of_mem _ below)

theorem weakened_root {items : List Sample} (x : Sample) (nonempty : items ≠ []) :
    ((Sample.array items).shapeAt Slot.root).Weakened
      ((Sample.array (items ++ [x])).shapeAt Slot.root) := by
  have plain (items : List Sample) : (Sample.array items).shapeAt Slot.root = .alias (.seq
      (.unifyAll (typesAt (Sample.array items).slotNumber Slot.root.element items))) := by
    rw [shapeAt, if_pos ⟨rfl, rfl⟩, typeAt, Ty.unifyAll_eq_common]
    rfl
  have some : typesAt (Sample.array items).slotNumber Slot.root.element items ≠ [] := by
    rw [typesAt_eq_map]
    simpa using nonempty
  rw [plain, plain, typesAt_eq_map _ _ (items ++ [x]), List.map_append, ← typesAt_eq_map,
    typesAt_concat]
  exact .alias (Ty.unifyAll_append_eq_or some _)

theorem weakened_declAt {items : List Sample} {x : Sample} (nonempty : items ≠ [])
    (ordered : (Sample.array (items ++ [x])).Ordered) {slot : Slot}
    (known : slot ∈ (Sample.array items).slots) :
    ((Sample.array items).declAt slot).Weakened ((Sample.array (items ++ [x])).declAt slot) where
  id := slotNumber_concat x known
  shape := by
    by_cases root : slot = Slot.root
    · rw [root]
      exact weakened_root x nonempty
    · have present := (mem_slots.mp known).resolve_left root
      have distinct := ordered.distinct_contributions (Sample.array (items ++ [x])).slotNumber slot
      obtain ⟨more, objects⟩ := objectsAt_concat_item items x slot
      rw [objects, List.map_append, contributions_concat] at distinct
      rw [declAt, declAt, shapeAt, shapeAt, if_neg fun given => root given.1,
        if_neg fun given => root given.1, objects, List.map_append, contributions_concat]
      exact weakened_mergeFields (by simpa using present) distinct

/-- One more element behind the others keeps every declaration in its place, possibly with a weaker
body, and adds further ones behind them. -/
theorem decls_concat {items : List Sample} {x : Sample} (nonempty : items ≠ [])
    (ordered : (Sample.array (items ++ [x])).Ordered) :
    ∃ kept added, (Sample.array (items ++ [x])).decls .unified = kept ++ added ∧
      List.Forall₂ Decl.Weakened ((Sample.array items).decls .unified) kept := by
  obtain ⟨later, slots⟩ := slots_concat items x
  refine ⟨(Sample.array items).slots.map (Sample.array (items ++ [x])).declAt,
    later.map (Sample.array (items ++ [x])).declAt, ?_, ?_⟩
  · rw [decls_unified, ← slots, List.map_append]
  · rw [decls_unified, List.forall₂_map_left_iff, List.forall₂_map_right_iff, List.forall₂_same]
    exact fun slot known => weakened_declAt nonempty ordered known

/-- The one element so far. -/
def plainElement : Sample :=
  .object [("a", .object [("b", .null)]), ("c", .bool true)]

/-- An element that has no `c`, a new `d`, and an array for the object at `a`. -/
def conflictingElement : Sample :=
  .object [("a", .array [.object []]), ("d", .string "")]

theorem decls_concat_conflictingElement :
    [plainElement] ≠ [] ∧ (Sample.array ([plainElement] ++ [conflictingElement])).Ordered ∧
      (Sample.array ([plainElement] ++ [conflictingElement])).decls .unified =
        [⟨1, .alias (.seq (.named 2))⟩,
          ⟨2, .struct [⟨"a", .any, false⟩, ⟨"c", .scalar .bool, true⟩,
            ⟨"d", .scalar .string, true⟩]⟩,
          ⟨3, .struct [⟨"b", .any, false⟩]⟩, ⟨4, .struct []⟩] ∧
      ∃ kept added, (Sample.array ([plainElement] ++ [conflictingElement])).decls .unified =
          kept ++ added ∧
        List.Forall₂ Decl.Weakened ((Sample.array [plainElement]).decls .unified) kept := by
  have ordered : (Sample.array ([plainElement] ++ [conflictingElement])).Ordered := by
    simp only [plainElement, conflictingElement, List.cons_append, List.nil_append, Ordered,
      OrderedItems, OrderedMembers]
    decide
  exact ⟨List.cons_ne_nil _ _, ordered, by decide, decls_concat (List.cons_ne_nil _ _) ordered⟩

end Sample
end GoSchema
