import GoSchema.Proofs.Schema.Merge
import Mathlib.Data.List.Pairwise

/-! # What merging means

The merged struct described without tallies: which keys it has and in which order, which type a
key keeps, and which fields are optional. Only the result of merging fits the description.
-/

namespace GoSchema

/-- Where a key is first used among contributed fields. -/
def firstUse (contributions : List (List Field)) (key : String) : Nat :=
  (contributions.flatten.map (·.key)).idxOf key

/-- Wherever a key is contributed, it has this type. -/
def AllTyped (contributions : List (List Field)) (key : String) (t : Ty) : Prop :=
  ∀ own ∈ contributions, ∀ f ∈ own, f.key = key → f.type = t

/-- A list of fields that is what the contributions have in common. The optional flags of the
contributed fields do not matter. -/
structure Merged (contributions : List (List Field)) (merged : List Field) : Prop where
  keys : ∀ key, key ∈ merged.map (·.key) ↔ ∃ own ∈ contributions, key ∈ own.map (·.key)
  /-- One field for each key, in the order of first use. -/
  order : (merged.map (·.key)).Pairwise fun k l =>
    firstUse contributions k < firstUse contributions l
  agreed : ∀ f ∈ merged, ∀ t, AllTyped contributions f.key t → f.type = t
  conflict : ∀ f ∈ merged, (¬∃ t, AllTyped contributions f.key t) → f.type = .any
  optional : ∀ f ∈ merged,
    f.optional = true ↔ ∃ own ∈ contributions, f.key ∉ own.map (·.key)

theorem allTyped_iff {contributions : List (List Field)} {key : String} {t : Ty} :
    AllTyped contributions key t ↔ ∀ u ∈ typesOf key contributions.flatten, u = t := by
  constructor
  · intro all u member
    obtain ⟨f, occurs, rfl⟩ := List.mem_map.mp member
    obtain ⟨inside, named⟩ := List.mem_filter.mp occurs
    obtain ⟨own, contributed, present⟩ := List.mem_flatten.mp inside
    exact all own contributed f present (of_decide_eq_true named)
  · intro all own contributed f present named
    have inside := List.mem_flatten.mpr ⟨own, contributed, present⟩
    exact all _ (List.mem_map_of_mem (List.mem_filter.mpr ⟨inside, decide_eq_true named⟩))

namespace Merged

variable {contributions : List (List Field)} {ms ns : List Field}

theorem keys_eq (one : Merged contributions ms) (other : Merged contributions ns) :
    ms.map (·.key) = ns.map (·.key) := by
  have nodup {fields : List Field} (merged : Merged contributions fields) :
      (fields.map (·.key)).Nodup :=
    merged.order.imp fun before same => absurd before (by simp [same])
  have perm : (ms.map (·.key)).Perm (ns.map (·.key)) :=
    (List.perm_ext_iff_of_nodup (nodup one) (nodup other)).mpr
      fun key => (one.keys key).trans (other.keys key).symm
  exact perm.eq_of_pairwise (fun _ _ _ _ before after => absurd after (Nat.lt_asymm before))
    one.order other.order

/-- The key of a merged field decides on its type and on whether it is optional. -/
theorem field_eq (one : Merged contributions ms) (other : Merged contributions ns) {f g : Field}
    (here : f ∈ ms) (there : g ∈ ns) (same : f.key = g.key) : f = g := by
  have type : f.type = g.type := by
    by_cases typed : ∃ t, AllTyped contributions f.key t
    · obtain ⟨t, all⟩ := typed
      rw [one.agreed f here t all, other.agreed g there t (same ▸ all)]
    · rw [one.conflict f here typed, other.conflict g there (same ▸ typed)]
  have optional : f.optional = g.optional := by
    rw [Bool.eq_iff_iff, one.optional f here, other.optional g there, same]
  cases f
  cases g
  simp_all

theorem unique (one : Merged contributions ms) (other : Merged contributions ns) : ms = ns := by
  have keys := one.keys_eq other
  have length : ms.length = ns.length := by simpa using congrArg List.length keys
  apply List.ext_getElem length
  intro i inside inside'
  apply one.field_eq other (List.getElem_mem inside) (List.getElem_mem inside')
  simpa [inside, inside'] using congrArg (·[i]?) keys

end Merged

theorem keys_mergeFields (contributions : List (List Field)) :
    (mergeFields contributions).map (·.key) = keysOf contributions.flatten := by
  simp [mergeFields_eq, Function.comp_def]

theorem merged_mergeFields {contributions : List (List Field)}
    (distinct : DistinctKeys contributions) : Merged contributions (mergeFields contributions) where
  keys key := by
    rw [← exists_mergeFields_key, List.mem_map]
  order := by
    rw [keys_mergeFields]
    exact FirstOccurrence.pairwise_idxOf_eraseDups _
  agreed := by
    intro f member t all
    rw [mergeFields_eq] at member
    obtain ⟨key, known, rfl⟩ := List.mem_map.mp member
    have occurs : typesOf key contributions.flatten ≠ [] :=
      fun none => typesOf_eq_nil.mp none known
    exact Ty.unifyAll_eq_of_forall occurs (allTyped_iff.mp all)
  conflict := by
    intro f member apart
    rw [mergeFields_eq] at member
    obtain ⟨key, -, rfl⟩ := List.mem_map.mp member
    simp only [allTyped_iff] at apart
    exact Ty.unifyAll_eq_any_of_not_forall apart
  optional := by
    intro f member
    rw [mergeFields_of_distinct distinct] at member
    obtain ⟨key, -, rfl⟩ := List.mem_map.mp member
    exact decide_eq_true_iff

/-- What merging returns is the one list that the contributions have in common. -/
theorem merged_iff_eq_mergeFields {contributions : List (List Field)}
    (distinct : DistinctKeys contributions) (merged : List Field) :
    Merged contributions merged ↔ merged = mergeFields contributions := by
  constructor
  · intro given
    exact given.unique (merged_mergeFields distinct)
  · rintro rfl
    exact merged_mergeFields distinct

/-- The keys overlap in part and stand in different orders, the flags say nothing, a type that has
been given up meets its first self again, and one object has no members. -/
theorem merged_iff_eq_mergeFields_overlapping :
    let contributions : List (List Field) :=
      [[⟨"b", .scalar .int, true⟩, ⟨"a", .named 2, false⟩], [],
        [⟨"a", .named 3, true⟩, ⟨"c", .seq .any, true⟩, ⟨"b", .scalar .int, false⟩],
        [⟨"c", .seq .any, false⟩, ⟨"a", .named 2, false⟩, ⟨"b", .scalar .int, true⟩]]
    let required : List (List Field) := [[⟨"a", .any, true⟩], [⟨"a", .any, true⟩]]
    DistinctKeys contributions ∧ DistinctKeys required ∧
      (∀ merged, Merged contributions merged ↔
        merged = [⟨"b", .scalar .int, true⟩, ⟨"a", .any, true⟩, ⟨"c", .seq .any, true⟩]) ∧
      ∀ merged, Merged required merged ↔ merged = [⟨"a", .any, false⟩] := by
  intro contributions required
  have distinct : DistinctKeys contributions := by
    simp [contributions, DistinctKeys]
  have distinct' : DistinctKeys required := by
    simp [required, DistinctKeys]
  exact ⟨distinct, distinct', merged_iff_eq_mergeFields distinct,
    merged_iff_eq_mergeFields distinct'⟩

end GoSchema
