import GoSchema.Schema.Draft

/-! # Looking up in drafts

A draft lists its entries by ascending number, so it is determined by what a look-up finds, and
an update changes what is found under one number.
-/

namespace GoSchema

theorem lookup_cons_of_ne {α β : Type} [BEq α] [LawfulBEq α] {a b : α} (found : β)
    (rest : List (α × β)) (other : a ≠ b) :
    List.lookup a ((b, found) :: rest) = rest.lookup a := by
  have unequal : (a == b) = false := by simpa using other
  simp only [List.lookup_cons, unequal]

/-- Where every key occurs once, a look-up finds what is listed. -/
theorem lookup_eq_some_iff_mem {α β : Type} [BEq α] [LawfulBEq α] {l : List (α × β)}
    (distinct : (l.map (·.1)).Nodup) {a : α} {b : β} : l.lookup a = some b ↔ (a, b) ∈ l := by
  rw [List.lookup_eq_some_iff]
  constructor
  · intro found
    obtain ⟨before, after, rfl, -⟩ := found
    exact List.mem_append_right before List.mem_cons_self
  · intro member
    obtain ⟨before, after, rfl⟩ := List.append_of_mem member
    refine ⟨before, after, rfl, fun other earlier => bne_iff_ne.mpr fun same => ?_⟩
    rw [List.map_append] at distinct
    exact (List.nodup_append.mp distinct).2.2 other.1 (List.mem_map_of_mem earlier) a
      List.mem_cons_self same.symm

namespace Draft

def Ascending (draft : Draft) : Prop :=
  draft.Pairwise fun a b => a.1 < b.1

def Above (id : TypeId) (draft : Draft) : Prop :=
  ∀ entry ∈ draft, id < entry.1

@[simp]
theorem ascending_nil : Ascending [] :=
  .nil

theorem ascending_cons {i : TypeId} {e : Entry} {rest : Draft} :
    Ascending ((i, e) :: rest) ↔ Above i rest ∧ Ascending rest :=
  List.pairwise_cons

theorem lookup_eq_none {id : TypeId} {draft : Draft} (above : Above id draft) :
    draft.lookup id = none := by
  apply List.lookup_eq_none_iff.mpr
  intro entry member
  simpa using Nat.ne_of_lt (above entry member)

theorem above_update {i id : TypeId} {f : Option Entry → Entry} {draft : Draft}
    (above : Above i draft) (below : i < id) : Above i (draft.update id f) := by
  induction draft with
  | nil => intro entry member; rw [List.mem_singleton.mp member]; exact below
  | cons head rest ih =>
      obtain ⟨j, e⟩ := head
      have first : i < j := above (j, e) (by simp)
      have others : Above i rest := fun entry member => above entry (List.mem_cons_of_mem _ member)
      simp only [update]
      split
      · intro entry member
        rcases List.mem_cons.mp member with rfl | member
        · exact below
        · exact above entry member
      · split
        · intro entry member
          rcases List.mem_cons.mp member with rfl | member
          · exact first
          · exact others entry member
        · intro entry member
          rcases List.mem_cons.mp member with rfl | member
          · exact first
          · exact ih others entry member

theorem Ascending.update {id : TypeId} {f : Option Entry → Entry} {draft : Draft}
    (ascending : draft.Ascending) : (draft.update id f).Ascending := by
  induction draft with
  | nil => simp [Draft.update, Ascending]
  | cons head rest ih =>
      obtain ⟨i, e⟩ := head
      obtain ⟨above, tail⟩ := ascending_cons.mp ascending
      simp only [Draft.update]
      split
      · next before =>
          refine ascending_cons.mpr ⟨?_, ascending⟩
          intro entry member
          rcases List.mem_cons.mp member with rfl | member
          · exact before
          · exact Nat.lt_trans before (above entry member)
      · next notBefore =>
          split
          · exact ascending_cons.mpr ⟨above, tail⟩
          · next other =>
              have after : i < id := Nat.lt_of_le_of_ne (Nat.le_of_not_lt notBefore) (Ne.symm other)
              exact ascending_cons.mpr ⟨above_update above after, ih tail⟩

/-- An update changes one entry and no other. -/
theorem lookup_update {draft : Draft} (ascending : draft.Ascending) (id j : TypeId)
    (f : Option Entry → Entry) :
    List.lookup j (draft.update id f) =
      if j = id then some (f (draft.lookup id)) else draft.lookup j := by
  induction draft with
  | nil =>
      by_cases same : j = id
      · simp [update, same]
      · rw [if_neg same]; exact lookup_cons_of_ne _ _ same
  | cons head rest ih =>
      obtain ⟨i, e⟩ := head
      obtain ⟨above, tail⟩ := ascending_cons.mp ascending
      simp only [update]
      split
      · next before =>
          have missing : List.lookup id ((i, e) :: rest) = none := by
            apply lookup_eq_none
            intro entry member
            rcases List.mem_cons.mp member with rfl | member
            · exact before
            · exact Nat.lt_trans before (above entry member)
          rw [missing]
          by_cases same : j = id
          · rw [if_pos same, same, List.lookup_cons_self]
          · rw [if_neg same, lookup_cons_of_ne _ _ same]
      · split
        · next equal =>
            subst equal
            rw [List.lookup_cons_self]
            by_cases same : j = id
            · rw [if_pos same, same, List.lookup_cons_self]
            · rw [if_neg same, lookup_cons_of_ne _ _ same, lookup_cons_of_ne _ _ same]
        · next notBefore other =>
            rw [lookup_cons_of_ne e rest other]
            by_cases head : j = i
            · subst head
              rw [if_neg (Ne.symm other), List.lookup_cons_self, List.lookup_cons_self]
            · rw [lookup_cons_of_ne _ _ head, lookup_cons_of_ne _ _ head, ih tail]

theorem Ascending.nodup_ids {draft : Draft} (ascending : draft.Ascending) :
    (draft.map (·.1)).Nodup :=
  List.pairwise_map.mpr (ascending.imp Nat.ne_of_lt)

theorem mem_iff_lookup {draft : Draft} (ascending : draft.Ascending) {id : TypeId} {e : Entry} :
    (id, e) ∈ draft ↔ draft.lookup id = some e :=
  (lookup_eq_some_iff_mem ascending.nodup_ids).symm

theorem mem_declare {draft : Draft} (ascending : draft.Ascending) {id i : TypeId} {e : Entry}
    {shape : Shape} : (id, e) ∈ draft.declare i shape ↔
      if id = i then e = .plain shape else (id, e) ∈ draft := by
  have declared : (draft.declare i shape).Ascending := ascending.update
  rw [mem_iff_lookup declared, declare, lookup_update ascending, mem_iff_lookup ascending]
  split
  · exact Option.some_inj.trans eq_comm
  · exact Iff.rfl

theorem ext_mem {left right : Draft} (leftAscending : left.Ascending)
    (rightAscending : right.Ascending)
    (same : ∀ id e, (id, e) ∈ left ↔ (id, e) ∈ right) : left = right := by
  have distinct {d : Draft} (ascending : d.Ascending) : d.Nodup := by
    refine List.Pairwise.imp ?_ ascending
    rintro a b before rfl
    exact Nat.lt_irrefl _ before
  have perm : left.Perm right :=
    (List.perm_ext_iff_of_nodup (distinct leftAscending) (distinct rightAscending)).mpr
      fun (id, e) => same id e
  refine List.Perm.eq_of_pairwise ?_ leftAscending rightAscending perm
  intro a b _ _ before after
  exact absurd before (Nat.not_lt.mpr (Nat.le_of_lt after))

end Draft
end GoSchema
