import GoSchema.Conversion
import GoSchema.Proofs.Schema.SlotDecls

/-! # Repeated array elements

An array element that stands once more behind an equal one adds nothing. Its objects are at slots
that are numbered already, and at each slot they contribute fields that were contributed before. The
counts of the fields change, but a key is missing from some object if and only if it was before.
-/

namespace GoSchema

/-! ## Lists with repetitions -/

/-- Elements are repeated behind their first occurrences. -/
def Repeats {α : Type} (xs ys : List α) : Prop :=
  ∃ front more back, more ⊆ front ∧ xs = front ++ back ∧ ys = front ++ (more ++ back)

namespace Repeats

variable {α β : Type} {xs ys : List α}

theorem refl (xs : List α) : Repeats xs xs :=
  ⟨xs, [], [], List.nil_subset xs, (List.append_nil xs).symm, (List.append_nil xs).symm⟩

theorem again (front back : List α) {x : α} (known : x ∈ front) :
    Repeats (front ++ back) (front ++ x :: back) :=
  ⟨front, [x], back, by simpa using known, rfl, rfl⟩

theorem append (repeats : Repeats xs ys) (before after : List α) :
    Repeats (before ++ (xs ++ after)) (before ++ (ys ++ after)) := by
  obtain ⟨front, more, back, known, rfl, rfl⟩ := repeats
  exact ⟨before ++ front, more, back ++ after, List.subset_append_of_subset_right _ known,
    by simp, by simp⟩

theorem flatMap (repeats : Repeats xs ys) (f : α → List β) :
    Repeats (xs.flatMap f) (ys.flatMap f) := by
  obtain ⟨front, more, back, known, rfl, rfl⟩ := repeats
  have seen : more.flatMap f ⊆ front.flatMap f := by
    intro y member
    obtain ⟨x, inside, made⟩ := List.mem_flatMap.mp member
    exact List.mem_flatMap.mpr ⟨x, known inside, made⟩
  exact ⟨front.flatMap f, more.flatMap f, back.flatMap f, seen, List.flatMap_append, by simp⟩

theorem filterMap (repeats : Repeats xs ys) (f : α → Option β) :
    Repeats (xs.filterMap f) (ys.filterMap f) := by
  obtain ⟨front, more, back, known, rfl, rfl⟩ := repeats
  exact ⟨front.filterMap f, more.filterMap f, back.filterMap f, List.filterMap_subset f known,
    List.filterMap_append, by simp⟩

theorem mem_iff (repeats : Repeats xs ys) (x : α) : x ∈ xs ↔ x ∈ ys := by
  obtain ⟨front, more, back, known, rfl, rfl⟩ := repeats
  have seen : x ∈ more → x ∈ front := fun member => known member
  simp only [List.mem_append]
  tauto

/-- Repetitions are no first occurrences. -/
theorem eraseDups [BEq α] [LawfulBEq α] (repeats : Repeats xs ys) :
    xs.eraseDups = ys.eraseDups := by
  obtain ⟨front, more, back, known, rfl, rfl⟩ := repeats
  have nothing : more.removeAll front = [] :=
    List.filter_eq_nil_iff.mpr fun x member => by simpa using known member
  have new : (more ++ back).removeAll front = back.removeAll front := by
    rw [List.removeAll, List.filter_append, ← List.removeAll, ← List.removeAll, nothing,
      List.nil_append]
  rw [List.eraseDups_append, List.eraseDups_append, new]

end Repeats

namespace Sample

/-! ## Samples with repetitions -/

/-- In one array, at any depth, an element stands once more behind its first occurrence. -/
inductive Repeated : Sample → Sample → Prop where
  | here (front back : List Sample) {x : Sample} (known : x ∈ front) :
      Repeated (.array (front ++ back)) (.array (front ++ x :: back))
  | item (front back : List Sample) {x y : Sample} (inside : Repeated x y) :
      Repeated (.array (front ++ x :: back)) (.array (front ++ y :: back))
  | member (front back : List (String × Sample)) {key : String} {x y : Sample}
      (inside : Repeated x y) :
      Repeated (.object (front ++ (key, x) :: back)) (.object (front ++ (key, y) :: back))

/-- What a repetition does to the values at a slot: some of them are repeated, or it lies within one
of them. -/
inductive Echo : List Sample → List Sample → Prop where
  | repeats {items others : List Sample} (repeats : Repeats items others) : Echo items others
  | within (before after : List Sample) {v w : Sample} (inside : v.Repeated w) :
      Echo (before ++ v :: after) (before ++ w :: after)

theorem Echo.refl (items : List Sample) : Echo items items :=
  .repeats (.refl items)

theorem Echo.append {items others : List Sample} (echo : Echo items others)
    (before after : List Sample) :
    Echo (before ++ (items ++ after)) (before ++ (others ++ after)) := by
  cases echo with
  | repeats repeats => exact .repeats (repeats.append before after)
  | within before' after' inside =>
      simpa using Echo.within (before ++ before') (after' ++ after) inside

theorem Repeated.children {v w : Sample} (repeated : v.Repeated w) (step : Step) :
    Echo (v.children step) (w.children step) := by
  cases repeated with
  | here front back known =>
      cases step with
      | item => exact .repeats (.again front back known)
      | key => exact .refl []
  | item front back inside =>
      cases step with
      | item => exact .within front back inside
      | key => exact .refl []
  | @member front back key _ _ inside =>
      cases step with
      | item => exact .refl []
      | key name =>
          simp only [Sample.children, List.filter_append, List.map_append, List.filter_cons]
          by_cases same : key = name
          · simp only [same, decide_true, if_true, List.map_cons]
            exact .within _ _ inside
          · simp only [same, decide_false, Bool.false_eq_true, if_false]
            exact .refl _

theorem Echo.children {items others : List Sample} (echo : Echo items others) (step : Step) :
    Echo (items.flatMap (Sample.children step)) (others.flatMap (Sample.children step)) := by
  cases echo with
  | repeats repeats => exact .repeats (repeats.flatMap _)
  | within _ _ inside =>
      simp only [List.flatMap_append, List.flatMap_cons]
      exact (inside.children step).append _ _

theorem Repeated.valuesAt {v w : Sample} (repeated : v.Repeated w) (slot : Slot) :
    Echo (v.valuesAt slot) (w.valuesAt slot) := by
  induction slot with
  | nil => exact .within [] [] repeated
  | cons step slot ih => exact ih.children step

/-! ## Types and fields -/

theorem Repeated.typeAt {v w : Sample} (repeated : v.Repeated w) (number : Slot → TypeId)
    (slot : Slot) : v.typeAt number slot = w.typeAt number slot := by
  induction repeated generalizing slot with
  | here front back known =>
      have repeats := Repeats.again front back known
      rw [Sample.typeAt, Sample.typeAt, ← Ty.unifyAll_eq_common, ← Ty.unifyAll_eq_common,
        typesAt_eq_map, typesAt_eq_map]
      refine congrArg Ty.seq (Ty.unifyAll_congr fun t => ?_)
      simp only [List.mem_map, repeats.mem_iff]
  | item _ _ _ ih =>
      simp only [Sample.typeAt, typesAt_eq_map, List.map_append, List.map_cons, ih]
  | member => rfl

/-- A repetition within an object is not seen in its fields. -/
theorem Repeated.fields {v w : Sample} (repeated : v.Repeated w) (number : Slot → TypeId)
    (slot : Slot) :
    v.members?.map (fieldsAt number slot) = w.members?.map (fieldsAt number slot) := by
  cases repeated with
  | here | item => rfl
  | member _ _ inside =>
      simp only [members?, Option.map_some, fieldsAt, List.map_append, List.map_cons,
        inside.typeAt number]

theorem Echo.fields {items others : List Sample} (echo : Echo items others)
    (number : Slot → TypeId) (slot : Slot) :
    Repeats (items.filterMap fun part => part.members?.map (fieldsAt number slot))
      (others.filterMap fun part => part.members?.map (fieldsAt number slot)) := by
  cases echo with
  | repeats repeats => exact repeats.filterMap _
  | within _ _ inside =>
      simp only [List.filterMap_append, List.filterMap_cons, inside.fields number slot]
      exact .refl _

theorem Repeated.contributions {v w : Sample} (repeated : v.Repeated w) (number : Slot → TypeId)
    (slot : Slot) :
    Repeats ((v.objectsAt slot).map (fieldsAt number slot))
      ((w.objectsAt slot).map (fieldsAt number slot)) := by
  simp only [objectsAt, List.map_filterMap]
  exact (repeated.valuesAt slot).fields number slot

theorem Repeated.members? {v w : Sample} (repeated : v.Repeated w) :
    v.members? = none ↔ w.members? = none := by
  cases repeated with
  | here | item => rfl
  | member => exact ⟨nofun, nofun⟩

/-! ## Numbers -/

theorem Repeated.objectSlots {v w : Sample} (repeated : v.Repeated w) (slot : Slot) :
    Repeats (objectSlots slot v) (objectSlots slot w) := by
  induction repeated generalizing slot with
  | here front back known =>
      simp only [Sample.objectSlots, itemSlots_eq_flatMap]
      exact (Repeats.again front back known).flatMap _
  | item _ _ _ ih =>
      simp only [Sample.objectSlots, itemSlots_eq_flatMap, List.flatMap_append, List.flatMap_cons]
      exact (ih _).append _ _
  | member front _ _ ih =>
      simp only [Sample.objectSlots, memberSlots_eq_flatMap, List.flatMap_append, List.flatMap_cons]
      exact (ih _).append (slot :: _) _

theorem Repeated.slots {v w : Sample} (repeated : v.Repeated w) : v.slots = w.slots := by
  have below := (repeated.objectSlots Slot.root).append [Slot.root] []
  simpa [Sample.slots] using below.eraseDups

/-! ## Declarations -/

/-- At every slot the same fields are merged, keys in the same order. -/
theorem Repeated.mergeFields {v w : Sample} (repeated : v.Repeated w) (ordered : v.Ordered)
    (number : Slot → TypeId) (slot : Slot) :
    mergeFields ((v.objectsAt slot).map (fieldsAt number slot)) =
      mergeFields ((w.objectsAt slot).map (fieldsAt number slot)) := by
  have contributions := repeated.contributions number slot
  have keys (fields : List (List Field)) :
      keysOf fields.flatten = (fields.flatMap (·.map (·.key))).eraseDups := by
    rw [keysOf, List.map_flatten, List.flatMap_def]
  refine mergeFields_congr (ordered.distinct_contributions number slot) contributions.mem_iff ?_
  rw [keys, keys, (contributions.flatMap _).eraseDups]

theorem Repeated.shapeAt {v w : Sample} (repeated : v.Repeated w) (ordered : v.Ordered)
    (slot : Slot) : v.shapeAt slot = w.shapeAt slot := by
  have number : v.slotNumber = w.slotNumber := by
    funext other
    rw [slotNumber, slotNumber, repeated.slots]
  simp only [Sample.shapeAt, repeated.members?, repeated.typeAt, repeated.mergeFields ordered,
    number]

/-- A repeated array element changes no declaration, and nothing that is converted. -/
theorem decls_repeated {v w : Sample} (ordered : v.Ordered) (repeated : v.Repeated w) :
    w.decls .unified = v.decls .unified ∧
      ∀ options, w.convert options = v.convert options := by
  have decls : w.decls .unified = v.decls .unified := by
    rw [decls_unified, decls_unified, ← repeated.slots]
    refine List.map_congr_left fun slot _ => ?_
    rw [declAt, declAt, slotNumber, slotNumber, repeated.slots, repeated.shapeAt ordered]
  exact ⟨decls, fun options => by rw [convert, convert, decls]⟩

/-- The elements lack keys of each other, and a third one is no object. -/
def mixedElements : Sample :=
  .object [("list", .array [.object [("a", .object []), ("b", .null)], .null,
    .object [("b", .array [.object [], .bool true])]])]

/-- The first element stands once more behind the others, which counts its fields twice. -/
def firstElementAgain : Sample :=
  .object [("list", .array [.object [("a", .object []), ("b", .null)], .null,
    .object [("b", .array [.object [], .bool true])], .object [("a", .object []), ("b", .null)]])]

theorem decls_repeated_mixedElements :
    mixedElements.Ordered ∧ mixedElements.Repeated firstElementAgain ∧
      firstElementAgain.draft .unified ≠ mixedElements.draft .unified ∧
      firstElementAgain.decls .unified = mixedElements.decls .unified ∧
      ∀ options, firstElementAgain.convert options = mixedElements.convert options := by
  have ordered : mixedElements.Ordered := by
    simp only [mixedElements, Ordered, OrderedItems, OrderedMembers]
    decide
  have repeated : mixedElements.Repeated firstElementAgain :=
    .member [] [] (.here [_, _, _] [] List.mem_cons_self)
  exact ⟨ordered, repeated, by decide, decls_repeated ordered repeated⟩

end Sample
end GoSchema
