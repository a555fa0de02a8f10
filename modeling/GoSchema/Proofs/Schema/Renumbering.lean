import GoSchema.Proofs.Schema.SlotSemantics
import Mathlib.Logic.Equiv.Defs

/-! # Other numbers for the same structs

Types and fields mention structs by number. As long as different numbers stay different, it does
not matter which numbers are used: two types are equal before a renumbering if and only if they are
equal after it, so common types, merged fields and the types of a document follow the renumbering.
-/

namespace GoSchema

section

variable (renumbering : Equiv.Perm TypeId)

def Ty.renumber : Ty → Ty
  | .scalar s => .scalar s
  | .any => .any
  | .named id => .named (renumbering id)
  | .seq element => .seq element.renumber

def Field.renumber (field : Field) : Field :=
  { field with type := field.type.renumber renumbering }

/-- The same body with other numbers, where a struct is a set of fields. -/
inductive Shape.Renumbered : Shape → Shape → Prop where
  | scalar (s : Scalar) : Renumbered (.scalar s) (.scalar s)
  | alias (type : Ty) : Renumbered (.alias type) (.alias (type.renumber renumbering))
  | struct {fields others : List Field}
      (same : (fields.map (Field.renumber renumbering)).Perm others) :
      Renumbered (.struct fields) (.struct others)

/-- The same declaration with other numbers. -/
structure Decl.Renumbered (decl other : Decl) : Prop where
  id : other.id = renumbering decl.id
  shape : decl.shape.Renumbered renumbering other.shape

/-! ## Types -/

theorem Ty.renumber_eq_mapIds (t : Ty) : t.renumber renumbering = t.mapIds renumbering := by
  induction t with
  | scalar | any | named => rfl
  | seq element ih => exact congrArg Ty.seq ih

theorem Ty.renumber_injective : Function.Injective (Ty.renumber renumbering) := by
  rw [funext (renumber_eq_mapIds renumbering)]
  exact mapIds_injective renumbering.injective

theorem Ty.common_renumber (ts : List Ty) :
    common (ts.map (Ty.renumber renumbering)) = (common ts).renumber renumbering :=
  common_map (renumber_injective renumbering) rfl ts

theorem mergeFields_renumber (contributions : List (List Field)) :
    mergeFields (contributions.map (List.map (Field.renumber renumbering))) =
      (mergeFields contributions).map (Field.renumber renumbering) :=
  mergeFields_mapType (Ty.renumber_injective renumbering) rfl contributions

/-! ## Types of a document -/

namespace Sample

mutual
theorem typeAt_renumber (number : Slot → TypeId) (slot : Slot) (sample : Sample) :
    typeAt (renumbering ∘ number) slot sample =
      (typeAt number slot sample).renumber renumbering := by
  cases sample with
  | null | bool | number | string | object => rfl
  | array items =>
      rw [typeAt, typeAt, typesAt_renumber number slot.element items, Ty.common_renumber,
        Ty.renumber]
termination_by sizeOf sample

theorem typesAt_renumber (number : Slot → TypeId) (slot : Slot) (items : List Sample) :
    typesAt (renumbering ∘ number) slot items =
      (typesAt number slot items).map (Ty.renumber renumbering) := by
  cases items with
  | nil => rfl
  | cons item rest =>
      rw [typesAt, typesAt, typeAt_renumber number slot item, typesAt_renumber number slot rest,
        List.map_cons]
termination_by sizeOf items
end

theorem fieldsAt_renumber (number : Slot → TypeId) (slot : Slot) (ms : List (String × Sample)) :
    fieldsAt (renumbering ∘ number) slot ms =
      (fieldsAt number slot ms).map (Field.renumber renumbering) := by
  simp only [fieldsAt, typeAt_renumber, List.map_map]
  rfl

theorem renumbered_plainBody (type : Ty) :
    (plainBody type).Renumbered renumbering (plainBody (type.renumber renumbering)) := by
  cases type with
  | scalar s => exact .scalar s
  | any | named | seq => exact .alias _

end Sample

end

/-! ## Numbers by place in a list -/

namespace Slot

/-- The number of a slot in one list becomes its number in another. All other numbers stay. -/
def renumber (before after : List Slot) : TypeId → TypeId
  | 0 => 0
  | i + 1 =>
    match before[i]? with
    | some slot => numberIn after slot
    | none => i + 1

variable {before after : List Slot}

theorem renumber_numberIn (perm : before.Perm after) (slot : Slot) :
    renumber before after (numberIn before slot) = numberIn after slot := by
  by_cases known : slot ∈ before
  · rw [numberIn, renumber, List.getElem?_idxOf known]
  · have unknown : slot ∉ after := perm.mem_iff.not.mp known
    have beyond : before.idxOf slot = before.length := List.idxOf_eq_length known
    rw [numberIn, renumber, numberIn, beyond, List.getElem?_length, List.idxOf_eq_length unknown,
      perm.length_eq]

theorem renumber_renumber (perm : before.Perm after) (distinct : before.Nodup) (id : TypeId) :
    renumber after before (renumber before after id) = id := by
  cases id with
  | zero => rfl
  | succ i =>
      cases place : before[i]? with
      | some slot =>
          obtain ⟨inside, rfl⟩ := List.getElem?_eq_some_iff.mp place
          rw [renumber, place, renumber_numberIn perm.symm, numberIn, distinct.idxOf_getElem]
      | none =>
          have beyond : after[i]? = none := by
            rw [List.getElem?_eq_none_iff, ← perm.length_eq]
            exact List.getElem?_eq_none_iff.mp place
          rw [renumber, place, renumber, beyond]

/-- Two lists of the same distinct slots number them alike, up to a renumbering. -/
def renumbering (perm : before.Perm after) (distinct : before.Nodup) : Equiv.Perm TypeId where
  toFun := renumber before after
  invFun := renumber after before
  left_inv := renumber_renumber perm distinct
  right_inv := renumber_renumber perm.symm (perm.nodup_iff.mp distinct)

end Slot
end GoSchema
