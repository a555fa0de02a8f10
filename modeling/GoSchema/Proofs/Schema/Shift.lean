import GoSchema.Proofs.Schema.Draft
import GoSchema.Proofs.Schema.Merge

/-! # Shifted numbers

The declarations of one document can follow those of another when all their numbers, and those that
their types mention, are greater by one offset. Shifting goes through everything that is done with
declarations: common types, merging and the recording of fields.
-/

namespace GoSchema

section

variable (offset : Nat)

def Ty.shift : Ty → Ty :=
  mapIds (· + offset)

def Field.shift : Field → Field :=
  mapType (Ty.shift offset)

def Shape.shift : Shape → Shape
  | .scalar s => .scalar s
  | .alias type => .alias (type.shift offset)
  | .struct fields => .struct (fields.map (Field.shift offset))

def Decl.shift (decl : Decl) : Decl :=
  ⟨decl.id + offset, decl.shape.shift offset⟩

def Entry.shift : Entry → Entry
  | .plain shape => .plain (shape.shift offset)
  | .struct contributions => .struct (contributions.map (List.map (Field.shift offset)))

def Draft.shift (draft : Draft) : Draft :=
  draft.map fun (id, e) => (id + offset, e.shift offset)

/-! ## Types and bodies -/

theorem Ty.shift_injective : Function.Injective (Ty.shift offset) :=
  mapIds_injective fun _ _ => Nat.add_right_cancel

theorem Ty.unifyAll_shift (ts : List Ty) :
    unifyAll (ts.map (Ty.shift offset)) = (unifyAll ts).shift offset := by
  rw [unifyAll_eq_common, unifyAll_eq_common, common_map (shift_injective offset) rfl]

theorem Entry.shape_shift (e : Entry) : (e.shift offset).shape = e.shape.shift offset := by
  cases e with
  | plain => rfl
  | struct contributions =>
      have merged := mergeFields_mapType (Ty.shift_injective offset) rfl contributions
      exact congrArg Shape.struct merged

theorem Entry.contribute_shift (e : Entry) (own : List Field) :
    (e.contribute own).shift offset =
      (e.shift offset).contribute (own.map (Field.shift offset)) := by
  cases e with
  | plain => rfl
  | struct contributions => simp [Entry.contribute, Entry.shift]

/-! ## Drafts -/

namespace Draft

theorem decls_shift (draft : Draft) :
    (draft.shift offset).decls = draft.decls.map (Decl.shift offset) := by
  simp only [decls, shift, List.map_map]
  refine List.map_congr_left fun entry _ => ?_
  simp only [Function.comp_def, Entry.shape_shift]
  rfl

theorem update_shift {f g : Option Entry → Entry}
    (commutes : ∀ e, g (e.map (Entry.shift offset)) = (f e).shift offset) (draft : Draft)
    (id : TypeId) :
    (draft.shift offset).update (id + offset) g = (draft.update id f).shift offset := by
  induction draft with
  | nil => exact congrArg (fun e => [(id + offset, e)]) (commutes none)
  | cons head rest ih =>
      obtain ⟨i, e⟩ := head
      simp only [shift, List.map_cons, update] at ih ⊢
      by_cases before : id < i
      · rw [if_pos before, if_pos (Nat.add_lt_add_right before offset)]
        exact congrArg (fun e => (id + offset, e) :: _) (commutes none)
      · have notBefore : ¬id + offset < i + offset :=
          fun after => before (Nat.lt_of_add_lt_add_right after)
        rw [if_neg before, if_neg notBefore]
        by_cases same : id = i
        · rw [if_pos same, if_pos (congrArg (· + offset) same)]
          exact congrArg (fun e => (i + offset, e) :: _) (commutes (some e))
        · have other : ¬id + offset = i + offset := fun equal => same (Nat.add_right_cancel equal)
          rw [if_neg same, if_neg other, ih]
          rfl

variable {offset}

/-- An update leaves the entries before it alone. -/
theorem update_append {before : Draft} {id : TypeId}
    (earlier : ∀ entry ∈ before, entry.1 < id) (draft : Draft) (f : Option Entry → Entry) :
    (before ++ draft).update id f = before ++ draft.update id f := by
  induction before with
  | nil => rfl
  | cons head rest ih =>
      obtain ⟨i, e⟩ := head
      have first : i < id := earlier (i, e) List.mem_cons_self
      have others : ∀ entry ∈ rest, entry.1 < id :=
        fun entry member => earlier entry (List.mem_cons_of_mem _ member)
      rw [List.cons_append, update, if_neg (Nat.lt_asymm first), if_neg (Nat.ne_of_gt first),
        ih others, List.cons_append]

/-- An update below all entries adds one in front. -/
theorem update_above {id : TypeId} {draft : Draft} (above : Above id draft)
    (f : Option Entry → Entry) : draft.update id f = (id, f none) :: draft := by
  cases draft with
  | nil => rfl
  | cons head rest => rw [update, if_pos (above head List.mem_cons_self)]

/-- Recording shifted fields behind other entries. -/
theorem contribute_append_shift {before : Draft} {id : TypeId}
    (earlier : ∀ entry ∈ before, entry.1 < id + offset) (draft : Draft) (own : List Field) :
    (before ++ draft.shift offset).contribute (id + offset) (own.map (Field.shift offset)) =
      before ++ (draft.contribute id own).shift offset := by
  rw [contribute, update_append earlier, contribute, update_shift]
  intro e
  cases e with
  | none => rfl
  | some e => exact (e.contribute_shift offset own).symm

end Draft

end

end GoSchema
