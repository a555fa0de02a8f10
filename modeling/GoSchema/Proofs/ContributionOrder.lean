import GoSchema.Proofs.Rendering
import GoSchema.Proofs.Schema.Merging
import Mathlib.Data.List.Forall2

/-! # The order of contributions

The objects of a struct may be recorded in any order, and so may the fields of each of them. That
order decides on the order of the merged fields only, and the text lists these by their keys.
-/

namespace GoSchema

/-- The same contributions in another order, with the fields of each in another order. -/
def SameContributions (contributions others : List (List Field)) : Prop :=
  ∃ inner, List.Forall₂ List.Perm contributions inner ∧ inner.Perm others

namespace SameContributions

variable {contributions others : List (List Field)}

theorem flatten (same : SameContributions contributions others) :
    contributions.flatten.Perm others.flatten := by
  obtain ⟨inner, inside, order⟩ := same
  have within : contributions.flatten.Perm inner.flatten := by
    clear order
    induction inside with
    | nil => exact .nil
    | cons here _ ih => exact here.append ih
  exact within.trans order.flatten

theorem length (same : SameContributions contributions others) :
    contributions.length = others.length := by
  obtain ⟨inner, inside, order⟩ := same
  exact inside.length_eq.trans order.length_eq

theorem perm_mergeFields (same : SameContributions contributions others) :
    (mergeFields contributions).Perm (mergeFields others) :=
  mergeFields_perm same.flatten same.length

/-- The merged fields stand in one order exactly when the keys are first used in one order. -/
theorem mergeFields_eq_iff (same : SameContributions contributions others) :
    mergeFields contributions = mergeFields others ↔
      keysOf contributions.flatten = keysOf others.flatten := by
  constructor
  · intro equal
    rw [← keys_mergeFields, equal, keys_mergeFields]
  · intro keys
    have types (key : String) := typesOf_perm key same.flatten
    simp only [mergeFields_eq, keys, same.length, Ty.unifyAll_perm (types _),
      (types _).length_eq]

end SameContributions

/-- Fields with different keys are listed in one order, whichever they come in. -/
theorem sortedByKey_perm {fields others : List Field} (order : fields.Perm others)
    (distinct : (fields.map (·.key)).Nodup) : sortedByKey fields = sortedByKey others := by
  have perm : (sortedByKey fields).Perm (sortedByKey others) :=
    ((List.mergeSort_perm fields _).trans order).trans (List.mergeSort_perm others _).symm
  refine perm.eq_of_pairwise ?_ (Decl.pairwise_sortedByKey fields)
    (Decl.pairwise_sortedByKey others)
  intro f g here there before after
  have known := Decl.mem_sortedByKey.mp here
  have known' := order.mem_iff.mpr (Decl.mem_sortedByKey.mp there)
  exact List.inj_on_of_nodup_map distinct known known' (le_antisymm before after)

/-- The text of a struct depends neither on the order in which its objects are recorded nor on the
order of their fields, though the order of the merged fields does. A contribution may name a key
several times. -/
theorem emit_of_sameContributions {contributions others : List (List Field)}
    (same : SameContributions contributions others) :
    (∀ options text id before after,
        emit options text (before ++ ⟨id, .struct (mergeFields contributions)⟩ :: after) =
          emit options text (before ++ ⟨id, .struct (mergeFields others)⟩ :: after)) ∧
      (mergeFields contributions).Perm (mergeFields others) ∧
      (mergeFields contributions = mergeFields others ↔
        keysOf contributions.flatten = keysOf others.flatten) := by
  refine ⟨?_, same.perm_mergeFields, same.mergeFields_eq_iff⟩
  intro options text id before after
  have listed := sortedByKey_perm same.perm_mergeFields (nodup_mergeFields_keys contributions)
  have source : Decl.source options ⟨id, .struct (mergeFields contributions)⟩ =
      Decl.source options ⟨id, .struct (mergeFields others)⟩ := by
    simp only [Decl.source, Shape.source, listed]
  simp only [emit, List.foldl_append, List.foldl_cons, appendDecl, source]

/-- One key is contributed twice by one object, as often as there are objects in all. -/
theorem emit_of_sameContributions_repeatedKey :
    let contributions : List (List Field) :=
      [[⟨"b", .scalar .int, false⟩, ⟨"a", .scalar .bool, true⟩, ⟨"b", .scalar .int, true⟩],
        [⟨"b", .scalar .int, false⟩], [⟨"a", .scalar .string, false⟩]]
    let others : List (List Field) :=
      [[⟨"a", .scalar .string, false⟩], [⟨"b", .scalar .int, false⟩],
        [⟨"a", .scalar .bool, true⟩, ⟨"b", .scalar .int, true⟩, ⟨"b", .scalar .int, false⟩]]
    SameContributions contributions others ∧
      mergeFields contributions = [⟨"b", .scalar .int, false⟩, ⟨"a", .any, true⟩] ∧
      mergeFields contributions ≠ mergeFields others ∧
      emit .default "" [⟨1, .struct (mergeFields contributions)⟩] =
        emit .default "" [⟨1, .struct (mergeFields others)⟩] := by
  intro contributions others
  have same : SameContributions contributions others := by
    refine ⟨[[⟨"a", .scalar .bool, true⟩, ⟨"b", .scalar .int, true⟩, ⟨"b", .scalar .int, false⟩],
      [⟨"b", .scalar .int, false⟩], [⟨"a", .scalar .string, false⟩]], ?_, ?_⟩
    · exact .cons (by decide) (.cons (.refl _) (.cons (.refl _) .nil))
    · decide
  obtain ⟨text, -, equal_iff⟩ := emit_of_sameContributions same
  exact ⟨same, by decide, mt equal_iff.mp (by decide), text .default "" 1 [] []⟩

end GoSchema
