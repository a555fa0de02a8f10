import GoSchema.Schema.Merge
import GoSchema.Proofs.FirstOccurrence
import GoSchema.Proofs.Schema.Unification

/-! # What merging counts

The tallies of a list of fields in closed form: one for each key, keys in the order of their
first occurrence, each with the common type and the number of its occurrences. The merged struct
is read off from it.
-/

namespace GoSchema

def typesOf (key : String) (fields : List Field) : List Ty :=
  (fields.filter (·.key = key)).map (·.type)

/-- The keys of fields in the order of their first occurrence. -/
def keysOf (fields : List Field) : List String :=
  (fields.map (·.key)).eraseDups

@[simp]
theorem mem_keysOf {key : String} {fields : List Field} :
    key ∈ keysOf fields ↔ ∃ f ∈ fields, f.key = key := by
  simp [keysOf]

theorem nodup_keysOf (fields : List Field) : (keysOf fields).Nodup :=
  FirstOccurrence.nodup_eraseDups _

theorem typesOf_append (key : String) (fields others : List Field) :
    typesOf key (fields ++ others) = typesOf key fields ++ typesOf key others := by
  simp [typesOf]

theorem typesOf_concat_same (fields : List Field) (f : Field) :
    typesOf f.key (fields ++ [f]) = typesOf f.key fields ++ [f.type] := by
  simp [typesOf]

theorem typesOf_concat_other {key : String} (fields : List Field) {f : Field}
    (other : f.key ≠ key) : typesOf key (fields ++ [f]) = typesOf key fields := by
  simp [typesOf, other]

theorem typesOf_eq_nil {key : String} {fields : List Field} :
    typesOf key fields = [] ↔ key ∉ keysOf fields := by
  simp [typesOf, List.filter_eq_nil_iff]

namespace Tally

def ofKey (fields : List Field) (key : String) : Tally :=
  ⟨key, Ty.unifyAll (typesOf key fields), (typesOf key fields).length⟩

theorem ofKey_concat_other {key : String} (fields : List Field) {f : Field}
    (other : f.key ≠ key) : ofKey (fields ++ [f]) key = ofKey fields key := by
  simp only [ofKey, typesOf_concat_other fields other]

/-- Recording a field that has been seen changes the tally of its key alone. -/
theorem record_seen (fields : List Field) (f : Field) {keys : List String}
    (seen : f.key ∈ keys) (distinct : keys.Nodup) (known : f.key ∈ keysOf fields) :
    record (keys.map (ofKey fields)) f = keys.map (ofKey (fields ++ [f])) := by
  induction keys with
  | nil => simp at seen
  | cons key rest ih =>
      obtain ⟨once, restDistinct⟩ := List.nodup_cons.mp distinct
      by_cases same : key = f.key
      · have others : ∀ k ∈ rest, ofKey (fields ++ [f]) k = ofKey fields k := by
          intro k member
          apply ofKey_concat_other
          rintro rfl
          exact once (same ▸ member)
        have nonempty : typesOf f.key fields ≠ [] := fun none => typesOf_eq_nil.mp none known
        subst same
        simp only [List.map_cons, record, ofKey, if_pos, typesOf_concat_same, List.length_append,
          Ty.unifyAll_concat nonempty, List.length_singleton]
        rw [List.map_congr_left others]
      · have later : f.key ∈ rest := (List.mem_cons.mp seen).resolve_left (Ne.symm same)
        have kept : ofKey (fields ++ [f]) key = ofKey fields key :=
          ofKey_concat_other fields (Ne.symm same)
        simp only [List.map_cons, record, kept]
        rw [if_neg (show ¬ (ofKey fields key).key = f.key from same), ih later restDistinct]

/-- Recording a field that is new adds a tally at the end. -/
theorem record_new (fields : List Field) (f : Field) {keys : List String}
    (new : f.key ∉ keys) (unknown : f.key ∉ keysOf fields) :
    record (keys.map (ofKey fields)) f = (keys ++ [f.key]).map (ofKey (fields ++ [f])) := by
  induction keys with
  | nil => simp [record, ofKey, typesOf_concat_same, typesOf_eq_nil.mpr unknown, Ty.unifyAll]
  | cons key rest ih =>
      obtain ⟨other, later⟩ := List.ne_and_not_mem_of_not_mem_cons new
      have kept : ofKey (fields ++ [f]) key = ofKey fields key := ofKey_concat_other fields other
      simp only [List.map_cons, List.cons_append, record, kept]
      rw [if_neg (show ¬ (ofKey fields key).key = f.key from Ne.symm other), ih later]

theorem ofFields_eq (fields : List Field) :
    ofFields fields = (keysOf fields).map (ofKey fields) := by
  induction fields using List.reverseRecOn with
  | nil => rfl
  | append_singleton fields f ih =>
      have recorded : ofFields (fields ++ [f]) = record (ofFields fields) f := by
        simp [ofFields]
      have keys : keysOf (fields ++ [f]) =
          if f.key ∈ keysOf fields then keysOf fields else keysOf fields ++ [f.key] := by
        simp only [keysOf, List.map_append, List.map_cons, List.map_nil,
          FirstOccurrence.eraseDups_concat, List.mem_eraseDups]
      rw [recorded, ih, keys]
      split
      · next known => exact record_seen fields f known (nodup_keysOf fields) known
      · next unknown => exact record_new fields f unknown unknown

end Tally

theorem mergeFields_eq (contributions : List (List Field)) :
    mergeFields contributions = (keysOf contributions.flatten).map fun key =>
      ⟨key, Ty.unifyAll (typesOf key contributions.flatten),
        (typesOf key contributions.flatten).length != contributions.length⟩ := by
  simp only [mergeFields, Tally.ofFields_eq, List.map_map]
  rfl

theorem nodup_mergeFields_keys (contributions : List (List Field)) :
    ((mergeFields contributions).map (·.key)).Nodup := by
  rw [mergeFields_eq, List.map_map]
  simpa [Function.comp_def] using nodup_keysOf contributions.flatten

/-- Merging neither drops a key nor makes one up. -/
theorem exists_mergeFields_key {contributions : List (List Field)} {key : String} :
    (∃ field ∈ mergeFields contributions, field.key = key) ↔
      ∃ own ∈ contributions, key ∈ own.map (·.key) := by
  have known : key ∈ keysOf contributions.flatten ↔
      ∃ own ∈ contributions, key ∈ own.map (·.key) := by
    simp only [mem_keysOf, List.mem_flatten, List.mem_map]
    grind
  rw [← known, mergeFields_eq]
  simp

/-! ## Other types -/

/-- The same field with another type. -/
def Field.mapType (f : Ty → Ty) (field : Field) : Field :=
  { field with type := f field.type }

theorem keysOf_mapType (f : Ty → Ty) (fields : List Field) :
    keysOf (fields.map (Field.mapType f)) = keysOf fields := by
  simp only [keysOf, List.map_map]
  rfl

theorem typesOf_mapType (f : Ty → Ty) (key : String) (fields : List Field) :
    typesOf key (fields.map (Field.mapType f)) = (typesOf key fields).map f := by
  simp only [typesOf, List.filter_map, List.map_map]
  rfl

/-- Merging follows a change of types that keeps different types apart. -/
theorem mergeFields_mapType {f : Ty → Ty} (injective : Function.Injective f) (any : f .any = .any)
    (contributions : List (List Field)) :
    mergeFields (contributions.map (List.map (Field.mapType f))) =
      (mergeFields contributions).map (Field.mapType f) := by
  simp only [mergeFields_eq, ← List.map_flatten, keysOf_mapType, typesOf_mapType,
    Ty.unifyAll_eq_common, Ty.common_map injective any, List.length_map, List.map_map]
  rfl

/-! ## Order -/

theorem keysOf_perm {fs gs : List Field} (perm : fs.Perm gs) : (keysOf fs).Perm (keysOf gs) := by
  refine (List.perm_ext_iff_of_nodup (nodup_keysOf fs) (nodup_keysOf gs)).mpr fun key => ?_
  simp only [mem_keysOf, perm.mem_iff]

theorem typesOf_perm (key : String) {fs gs : List Field} (perm : fs.Perm gs) :
    (typesOf key fs).Perm (typesOf key gs) :=
  (perm.filter _).map _

/-- The order of the contributed fields decides on the order of the merged ones alone. -/
theorem mergeFields_perm {contributions others : List (List Field)}
    (perm : contributions.flatten.Perm others.flatten)
    (length : contributions.length = others.length) :
    (mergeFields contributions).Perm (mergeFields others) := by
  have types (key : String) := typesOf_perm key perm
  simp only [mergeFields_eq, length, Ty.unifyAll_perm (types _), (types _).length_eq]
  exact (keysOf_perm perm).map _

/-! ## Contributions without repeated keys -/

/-- No contribution names a key twice. -/
def DistinctKeys (contributions : List (List Field)) : Prop :=
  ∀ fields ∈ contributions, (fields.map (·.key)).Nodup

theorem length_typesOf_le_one (key : String) {fields : List Field}
    (distinct : (fields.map (·.key)).Nodup) :
    (typesOf key fields).length = if key ∈ fields.map (·.key) then 1 else 0 := by
  have occurrences : (typesOf key fields).length = (fields.map (·.key)).count key := by
    rw [typesOf, List.length_map, List.count, List.countP_map, List.countP_eq_length_filter]
    simp only [Function.comp_def, beq_eq_decide]
  rw [occurrences, distinct.count]

/-- Then a key occurs as often as there are contributions with it. -/
theorem length_typesOf_flatten {key : String} {contributions : List (List Field)}
    (distinct : DistinctKeys contributions) :
    (typesOf key contributions.flatten).length =
      contributions.countP fun fields => key ∈ fields.map (·.key) := by
  induction contributions with
  | nil => rfl
  | cons fields rest ih =>
      have here := length_typesOf_le_one key (distinct fields (by simp))
      have there := ih fun fs member => distinct fs (List.mem_cons_of_mem _ member)
      rw [List.flatten_cons, typesOf_append, List.length_append, here, there, List.countP_cons,
        Nat.add_comm]
      simp

/-- Then a merged field is optional if and only if some contribution lacks its key. -/
theorem mergeFields_of_distinct {contributions : List (List Field)}
    (distinct : DistinctKeys contributions) :
    mergeFields contributions = (keysOf contributions.flatten).map fun key =>
      ⟨key, Ty.unifyAll (typesOf key contributions.flatten),
        decide (∃ own ∈ contributions, key ∉ own.map (·.key))⟩ := by
  rw [mergeFields_eq]
  refine List.map_congr_left fun key _ => ?_
  have everywhere : contributions.countP (fun own => key ∈ own.map (·.key)) =
      contributions.length ↔ ¬∃ own ∈ contributions, key ∉ own.map (·.key) := by
    simp [List.countP_eq_length]
  rw [length_typesOf_flatten distinct, bne, beq_eq_decide, decide_eq_decide.mpr everywhere,
    decide_not, Bool.not_not]

/-- What is merged depends on which contributions there are, and on the order of their keys. -/
theorem mergeFields_congr {contributions others : List (List Field)}
    (distinct : DistinctKeys contributions) (same : ∀ own, own ∈ contributions ↔ own ∈ others)
    (keys : keysOf contributions.flatten = keysOf others.flatten) :
    mergeFields contributions = mergeFields others := by
  have distinctOthers : DistinctKeys others :=
    fun own member => distinct own ((same own).mpr member)
  have types (key : String) (t : Ty) :
      t ∈ typesOf key contributions.flatten ↔ t ∈ typesOf key others.flatten := by
    simp only [typesOf, List.mem_map, List.mem_filter, List.mem_flatten, same]
  simp only [mergeFields_of_distinct distinct, mergeFields_of_distinct distinctOthers, keys, same,
    Ty.unifyAll_congr (types _)]

/-- A single contribution is merged into itself. -/
theorem mergeFields_singleton {fields : List Field} (distinct : (fields.map (·.key)).Nodup)
    (required : ∀ f ∈ fields, f.optional = false) : mergeFields [fields] = fields := by
  have alone : DistinctKeys [fields] := fun own member => by rwa [List.mem_singleton.mp member]
  have keys : keysOf fields = fields.map (·.key) := FirstOccurrence.eraseDups_of_nodup distinct
  rw [mergeFields_of_distinct alone, List.flatten_singleton, keys, List.map_map]
  refine (List.map_congr_left fun f present => ?_).trans (List.map_id fields)
  have typed : f.type ∈ typesOf f.key fields :=
    List.mem_map.mpr ⟨f, List.mem_filter.mpr ⟨present, by simp⟩, rfl⟩
  have named : f.key ∈ fields.map (·.key) := List.mem_map.mpr ⟨f, present, rfl⟩
  have once := length_typesOf_le_one f.key distinct
  rw [if_pos named] at once
  obtain ⟨t, only⟩ := List.length_eq_one_iff.mp once
  rw [only, List.mem_singleton] at typed
  have somewhere : ¬∃ own ∈ [fields], f.key ∉ own.map (·.key) := by simpa using ⟨f, present, rfl⟩
  simp only [Function.comp_def, only, ← typed, decide_eq_false somewhere]
  rw [← required f present]
  rfl

/-- Every field of a contribution survives, with its own type or `any`. -/
theorem exists_mergeFields {contributions : List (List Field)} {own : List Field}
    (member : own ∈ contributions) {f : Field} (present : f ∈ own) :
    ∃ g ∈ mergeFields contributions, g.key = f.key ∧ (g.type = .any ∨ g.type = f.type) := by
  have occurs : f ∈ contributions.flatten := List.mem_flatten.mpr ⟨own, member, present⟩
  have typed : f.type ∈ typesOf f.key contributions.flatten := by
    simp only [typesOf, List.mem_map, List.mem_filter, decide_eq_true_eq]
    exact ⟨f, ⟨occurs, rfl⟩, rfl⟩
  rw [mergeFields_eq]
  exact ⟨_, List.mem_map.mpr ⟨f.key, mem_keysOf.mpr ⟨f, occurs, rfl⟩, rfl⟩, rfl,
    Ty.unifyAll_eq_any_or typed⟩

/-- A merged field that is not optional occurs in every contribution. -/
theorem mem_of_mergeFields_required {contributions : List (List Field)}
    (distinct : DistinctKeys contributions) {g : Field} (merged : g ∈ mergeFields contributions)
    (required : g.optional = false) {own : List Field} (member : own ∈ contributions) :
    ∃ f ∈ own, f.key = g.key := by
  rw [mergeFields_of_distinct distinct] at merged
  obtain ⟨key, -, rfl⟩ := List.mem_map.mp merged
  have everywhere : ¬∃ own ∈ contributions, key ∉ own.map (·.key) := of_decide_eq_false required
  have named : key ∈ own.map (·.key) := not_not.mp fun missing => everywhere ⟨own, member, missing⟩
  exact List.mem_map.mp named

end GoSchema
