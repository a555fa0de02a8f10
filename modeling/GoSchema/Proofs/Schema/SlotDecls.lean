import GoSchema.Proofs.Schema.SlotSemantics

/-! # Declarations of slots

In unified mode every numbered slot has one declaration. It depends on the numbers of the slots and
on the objects at the slot, so samples that agree in both have the same declarations.
-/

namespace GoSchema.Sample

/-- The body that is declared for a slot. -/
def shapeAt (sample : Sample) (slot : Slot) : Shape :=
  if slot = Slot.root ∧ sample.members? = none
  then plainBody (sample.typeAt sample.slotNumber Slot.root)
  else .struct (mergeFields ((sample.objectsAt slot).map (fieldsAt sample.slotNumber slot)))

def declAt (sample : Sample) (slot : Slot) : Decl :=
  ⟨sample.slotNumber slot, sample.shapeAt slot⟩

theorem decls_unified (sample : Sample) :
    sample.decls .unified = sample.slots.map sample.declAt := by
  rw [decls, draft_eq_slotDraft, Draft.decls]
  cases object : sample.members? with
  | some ms =>
      obtain rfl := eq_object_of_members? object
      rw [slotDraft, List.map_map]
      refine List.map_congr_left fun slot _ => ?_
      rw [declAt, shapeAt, if_neg fun given => Option.some_ne_none ms given.2]
      rfl
  | none =>
      rw [slotDraft_of_plain object, slots_eq_cons, List.map_cons, List.map_cons, List.map_map]
      have root : sample.declAt Slot.root =
          ⟨TypeId.root, plainBody (sample.typeAt sample.slotNumber Slot.root)⟩ := by
        rw [declAt, shapeAt, if_pos ⟨rfl, object⟩, slotNumber_root]
      rw [root]
      refine congrArg _ (List.map_congr_left fun slot later => ?_)
      rw [declAt, shapeAt, if_neg fun given => (mem_tail_slots.mp later).1 given.1]
      rfl

/-- No object contributes a key twice. -/
theorem Ordered.distinct_contributions {sample : Sample} (ordered : sample.Ordered)
    (number : Slot → TypeId) (slot : Slot) :
    DistinctKeys ((sample.objectsAt slot).map (fieldsAt number slot)) := by
  intro own member
  obtain ⟨ms, here, rfl⟩ := List.mem_map.mp member
  rw [keys_fieldsAt]
  exact (ordered.objectsAt here).imp String.ne_of_lt

end GoSchema.Sample
