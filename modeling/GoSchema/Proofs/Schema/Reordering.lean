import GoSchema.Proofs.Schema.Renumbering
import GoSchema.Proofs.Schema.SlotDecls
import Mathlib.Data.List.Forall2

/-! # The order of array elements

Array elements in another order meet their slots in another order, so the same structs get other
numbers and their fields are first seen in another order. Nothing else changes: at every slot there
are the same values, and the types that they have in common do not depend on an order.
-/

namespace GoSchema

namespace Sample

/-- Array elements stand in another order, at any depth. -/
inductive Reordered : Sample → Sample → Prop where
  | refl (sample : Sample) : Reordered sample sample
  | array {items inner others : List Sample} (inside : List.Forall₂ Reordered items inner)
      (order : inner.Perm others) : Reordered (.array items) (.array others)
  | object {ms others : List (String × Sample)} (keys : ms.map (·.1) = others.map (·.1))
      (inside : List.Forall₂ Reordered (ms.map (·.2)) (others.map (·.2))) :
      Reordered (.object ms) (.object others)

/-- The same values in another order, each of them reordered within. -/
def Shuffled (items others : List Sample) : Prop :=
  ∃ inner, List.Forall₂ Reordered items inner ∧ inner.Perm others

/-- The same keys in the same order, with reordered values. -/
def ReorderedMembers (ms others : List (String × Sample)) : Prop :=
  List.Forall₂ (fun m other => m.1 = other.1 ∧ m.2.Reordered other.2) ms others

theorem reorderedMembers_of_keys {ms others : List (String × Sample)}
    (keys : ms.map (·.1) = others.map (·.1))
    (inside : List.Forall₂ Reordered (ms.map (·.2)) (others.map (·.2))) :
    ReorderedMembers ms others := by
  induction ms generalizing others with
  | nil =>
      obtain rfl := List.map_eq_nil_iff.mp keys.symm
      exact .nil
  | cons m rest ih =>
      cases others with
      | nil => cases keys
      | cons other later =>
          obtain ⟨key, keys⟩ := List.cons.inj keys
          cases inside with
          | cons here inside => exact .cons ⟨key, here⟩ (ih keys inside)

/-! ## Values at a slot -/

theorem forall₂_reordered_refl (items : List Sample) : List.Forall₂ Reordered items items :=
  List.forall₂_same.mpr fun item _ => .refl item

theorem Shuffled.append {items others items' others' : List Sample}
    (front : Shuffled items others) (back : Shuffled items' others') :
    Shuffled (items ++ items') (others ++ others') := by
  obtain ⟨inner, inside, order⟩ := front
  obtain ⟨inner', inside', order'⟩ := back
  exact ⟨inner ++ inner', List.rel_append inside inside', order.append order'⟩

theorem Shuffled.flatMap {f : Sample → List Sample} {items others : List Sample}
    (shuffled : Shuffled items others)
    (alike : ∀ v w, v.Reordered w → Shuffled (f v) (f w)) :
    Shuffled (items.flatMap f) (others.flatMap f) := by
  obtain ⟨inner, inside, order⟩ := shuffled
  have within : Shuffled (items.flatMap f) (inner.flatMap f) := by
    clear order
    induction inside with
    | nil => exact ⟨[], .nil, .nil⟩
    | cons here _ ih =>
        rw [List.flatMap_cons, List.flatMap_cons]
        exact (alike _ _ here).append ih
  obtain ⟨between, inside', order'⟩ := within
  exact ⟨between, inside', order'.trans (order.flatMap_right f)⟩

theorem ReorderedMembers.member {ms others : List (String × Sample)}
    (members : ReorderedMembers ms others) (name : String) :
    List.Forall₂ Reordered ((Sample.object ms).children (.key name))
      ((Sample.object others).children (.key name)) := by
  simp only [children]
  induction members with
  | nil => exact .nil
  | @cons m other _ _ same _ ih =>
      obtain ⟨key, here⟩ := same
      by_cases named : other.1 = name
      · simpa [key, named, here] using ih
      · simpa [key, named] using ih

theorem Reordered.children {v w : Sample} (reordered : v.Reordered w) (step : Step) :
    Shuffled (v.children step) (w.children step) := by
  cases reordered with
  | refl => exact ⟨_, forall₂_reordered_refl _, .refl _⟩
  | array inside order =>
      cases step with
      | item => exact ⟨_, inside, order⟩
      | key => exact ⟨[], .nil, .nil⟩
  | object keys inside =>
      cases step with
      | item => exact ⟨[], .nil, .nil⟩
      | key name =>
          exact ⟨_, (reorderedMembers_of_keys keys inside).member name, .refl _⟩

theorem Reordered.valuesAt {v w : Sample} (reordered : v.Reordered w) (slot : Slot) :
    Shuffled (v.valuesAt slot) (w.valuesAt slot) := by
  induction slot with
  | nil => exact ⟨[w], .cons reordered .nil, .refl _⟩
  | cons step slot ih => exact ih.flatMap fun _ _ same => same.children step

/-! ## Types -/

mutual
theorem Reordered.typeAt {v w : Sample} (reordered : v.Reordered w) (number : Slot → TypeId)
    (slot : Slot) : v.typeAt number slot = w.typeAt number slot := by
  cases reordered with
  | refl | object => rfl
  | @array items inner others inside order =>
      have types :
          (typesAt number slot.element inner).Perm (typesAt number slot.element others) := by
        rw [typesAt_eq_map, typesAt_eq_map]
        exact order.map _
      rw [Sample.typeAt, Sample.typeAt, typesAt_reordered inside number slot.element,
        ← Ty.unifyAll_eq_common, ← Ty.unifyAll_eq_common, Ty.unifyAll_perm types]
termination_by sizeOf v

theorem typesAt_reordered {items others : List Sample}
    (inside : List.Forall₂ Reordered items others) (number : Slot → TypeId) (slot : Slot) :
    typesAt number slot items = typesAt number slot others := by
  cases inside with
  | nil => rfl
  | cons here inside =>
      rw [typesAt, typesAt, here.typeAt number slot, typesAt_reordered inside number slot]
termination_by sizeOf items
end

theorem ReorderedMembers.fieldsAt {ms others : List (String × Sample)}
    (members : ReorderedMembers ms others) (number : Slot → TypeId) (slot : Slot) :
    fieldsAt number slot ms = fieldsAt number slot others := by
  induction members with
  | nil => rfl
  | @cons m other _ _ same _ ih =>
      obtain ⟨key, here⟩ := same
      simp only [Sample.fieldsAt, List.map_cons] at ih ⊢
      rw [ih, key, here.typeAt]

/-! ## Structs -/

theorem Shuffled.filterMap {α : Type} {f : Sample → Option α} {items others : List Sample}
    (shuffled : Shuffled items others) (alike : ∀ v w, v.Reordered w → f v = f w) :
    (items.filterMap f).Perm (others.filterMap f) := by
  obtain ⟨inner, inside, order⟩ := shuffled
  have within : items.filterMap f = inner.filterMap f := by
    clear order
    induction inside with
    | nil => rfl
    | cons here _ ih => simp only [List.filterMap_cons, alike _ _ here, ih]
  rw [within]
  exact order.filterMap f

/-- The objects at a slot contribute the same fields. -/
theorem Reordered.contributions {v w : Sample} (reordered : v.Reordered w)
    (number : Slot → TypeId) (slot : Slot) :
    ((v.objectsAt slot).map (Sample.fieldsAt number slot)).Perm
      ((w.objectsAt slot).map (Sample.fieldsAt number slot)) := by
  simp only [objectsAt, List.map_filterMap]
  refine (reordered.valuesAt slot).filterMap fun part other same => ?_
  cases same with
  | refl | array => rfl
  | object keys inside =>
      simp only [members?, Option.map_some]
      rw [(reorderedMembers_of_keys keys inside).fieldsAt]

theorem Reordered.objectsAt_eq_nil {v w : Sample} (reordered : v.Reordered w) (slot : Slot) :
    v.objectsAt slot = [] ↔ w.objectsAt slot = [] := by
  have same := (reordered.contributions (fun _ => TypeId.root) slot).length_eq
  rw [List.length_map, List.length_map] at same
  rw [← List.length_eq_zero_iff, same, List.length_eq_zero_iff]

theorem Reordered.members? {v w : Sample} (reordered : v.Reordered w) :
    v.members? = none ↔ w.members? = none := by
  cases reordered with
  | refl | array => rfl
  | object => exact ⟨nofun, nofun⟩

/-! ## Numbers -/

theorem Reordered.slots {v w : Sample} (reordered : v.Reordered w) : v.slots.Perm w.slots := by
  refine (List.perm_ext_iff_of_nodup v.nodup_slots w.nodup_slots).mpr fun slot => ?_
  rw [mem_slots, mem_slots, ne_eq, ne_eq, reordered.objectsAt_eq_nil]

def Reordered.renumbering {v w : Sample} (reordered : v.Reordered w) : Equiv.Perm TypeId :=
  Slot.renumbering reordered.slots v.nodup_slots

theorem Reordered.slotNumber {v w : Sample} (reordered : v.Reordered w) :
    reordered.renumbering ∘ v.slotNumber = w.slotNumber :=
  funext fun slot => Slot.renumber_numberIn reordered.slots slot

theorem Reordered.renumbering_root {v w : Sample} (reordered : v.Reordered w) :
    reordered.renumbering TypeId.root = TypeId.root :=
  calc reordered.renumbering TypeId.root
    _ = reordered.renumbering (v.slotNumber Slot.root) := by rw [slotNumber_root]
    _ = w.slotNumber Slot.root := congrFun reordered.slotNumber Slot.root
    _ = TypeId.root := slotNumber_root w

/-! ## Declarations -/

theorem Reordered.declAt {v w : Sample} (reordered : v.Reordered w) (slot : Slot) :
    (v.declAt slot).Renumbered reordered.renumbering (w.declAt slot) where
  id := (congrFun reordered.slotNumber slot).symm
  shape := by
    rw [Sample.declAt, Sample.declAt, shapeAt, shapeAt, ← reordered.slotNumber]
    by_cases root : slot = Slot.root ∧ v.members? = none
    · have other : slot = Slot.root ∧ w.members? = none := root.imp_right reordered.members?.mp
      rw [if_pos root, if_pos other, typeAt_renumber, ← reordered.typeAt]
      exact renumbered_plainBody _ _
    · have other : ¬(slot = Slot.root ∧ w.members? = none) :=
        fun given => root (given.imp_right reordered.members?.mpr)
      rw [if_neg root, if_neg other]
      refine .struct ?_
      have same := reordered.contributions (reordered.renumbering ∘ v.slotNumber) slot
      have before : (v.objectsAt slot).map
            (Sample.fieldsAt (reordered.renumbering ∘ v.slotNumber) slot) =
          ((v.objectsAt slot).map (Sample.fieldsAt v.slotNumber slot)).map
            (List.map (Field.renumber reordered.renumbering)) := by
        rw [List.map_map]
        exact List.map_congr_left fun ms _ => fieldsAt_renumber _ _ _ _
      rw [← mergeFields_renumber, ← before]
      exact mergeFields_perm same.flatten same.length_eq

/-- Another order of array elements leads to the same declarations with other numbers. -/
theorem decls_reordered {v w : Sample} (reordered : v.Reordered w) :
    ∃ renumbering : Equiv.Perm TypeId, renumbering TypeId.root = TypeId.root ∧
      ∃ matched, matched.Perm (w.decls .unified) ∧
        List.Forall₂ (Decl.Renumbered renumbering) (v.decls .unified) matched := by
  refine ⟨reordered.renumbering, reordered.renumbering_root, v.slots.map w.declAt, ?_, ?_⟩
  · rw [decls_unified]
    exact reordered.slots.map _
  · rw [decls_unified, List.forall₂_map_left_iff, List.forall₂_map_right_iff, List.forall₂_same]
    exact fun slot _ => reordered.declAt slot

/-- The two structs below the elements change their numbers when the elements change places. -/
def keysInTurn : Sample :=
  .array [.object [("a", .object []), ("c", .null)], .object [("b", .array [.object [], .null])]]

def keysInReturn : Sample :=
  .array [.object [("b", .array [.null, .object []])], .object [("a", .object []), ("c", .null)]]

theorem decls_reordered_keysInTurn :
    keysInTurn.decls .unified ≠ keysInReturn.decls .unified ∧ keysInTurn.Reordered keysInReturn ∧
    ∃ renumbering : Equiv.Perm TypeId, renumbering TypeId.root = TypeId.root ∧
      ∃ matched, matched.Perm (keysInReturn.decls .unified) ∧
        List.Forall₂ (Decl.Renumbered renumbering) (keysInTurn.decls .unified) matched := by
  have swapped : (Sample.object [("b", .array [.object [], .null])]).Reordered
      (.object [("b", .array [.null, .object []])]) :=
    .object rfl (.cons (.array (forall₂_reordered_refl _) (.swap _ _ _)) .nil)
  have reordered : keysInTurn.Reordered keysInReturn :=
    .array (.cons (.refl _) (.cons swapped .nil)) (.swap _ _ _)
  exact ⟨by decide, reordered, decls_reordered reordered⟩

end Sample
end GoSchema
