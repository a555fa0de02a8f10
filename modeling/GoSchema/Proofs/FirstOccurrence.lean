import Mathlib.Data.List.Induction
import Mathlib.Data.List.Nodup

/-! # First occurrences

A list without its later duplicates keeps the order in which elements first occur. Keys of a
merged struct and slots of a document are listed this way.
-/

namespace GoSchema.FirstOccurrence

variable {α : Type} [BEq α] [LawfulBEq α]

theorem eraseDups_concat (xs : List α) (x : α) :
    (xs ++ [x]).eraseDups = if x ∈ xs then xs.eraseDups else xs.eraseDups ++ [x] := by
  rw [List.eraseDups_append]
  by_cases seen : x ∈ xs
  · simp [List.removeAll, seen]
  · simp [List.removeAll, seen, List.eraseDups_cons]

theorem nodup_eraseDups (xs : List α) : xs.eraseDups.Nodup := by
  induction xs using List.reverseRecOn with
  | nil => simp
  | append_singleton xs x ih =>
      rw [eraseDups_concat]
      split
      · exact ih
      · next fresh =>
          refine List.nodup_append.mpr ⟨ih, by simp, ?_⟩
          intro a seen b last same
          rw [same, List.mem_singleton.mp last] at seen
          exact fresh (List.mem_eraseDups.mp seen)

theorem eraseDups_of_nodup {xs : List α} (distinct : xs.Nodup) : xs.eraseDups = xs := by
  induction xs using List.reverseRecOn with
  | nil => simp
  | append_singleton xs x ih =>
      obtain ⟨front, -, apart⟩ := List.nodup_append.mp distinct
      have fresh : x ∉ xs := fun seen => apart x seen x (by simp) rfl
      rw [eraseDups_concat, if_neg fresh, ih front]

/-- Elements stand in the order of their first occurrences. -/
theorem pairwise_idxOf_eraseDups (xs : List α) :
    xs.eraseDups.Pairwise fun x y => xs.idxOf x < xs.idxOf y := by
  induction xs using List.reverseRecOn with
  | nil => simp
  | append_singleton xs x ih =>
      have kept : xs.eraseDups.Pairwise fun y z => (xs ++ [x]).idxOf y < (xs ++ [x]).idxOf z := by
        refine ih.imp_of_mem fun {y z} here there before => ?_
        rwa [List.idxOf_append_of_mem (List.mem_eraseDups.mp here),
          List.idxOf_append_of_mem (List.mem_eraseDups.mp there)]
      rw [eraseDups_concat]
      split
      · exact kept
      · next fresh =>
          refine List.pairwise_append.mpr ⟨kept, List.pairwise_singleton _ _, ?_⟩
          intro y seen z last
          rw [List.mem_singleton.mp last, List.idxOf_append_of_notMem fresh,
            List.idxOf_append_of_mem (List.mem_eraseDups.mp seen)]
          have inside := List.idxOf_lt_length_of_mem (List.mem_eraseDups.mp seen)
          omega

theorem length_eraseDups_le (xs : List α) : xs.eraseDups.length ≤ xs.length := by
  induction xs using List.reverseRecOn with
  | nil => simp
  | append_singleton xs x ih =>
      rw [eraseDups_concat]
      split <;> simp only [List.length_append, List.length_singleton] <;> omega

/-- A list that loses nothing has no duplicates. -/
theorem nodup_of_length_eraseDups {xs : List α} (same : xs.eraseDups.length = xs.length) :
    xs.Nodup := by
  induction xs using List.reverseRecOn with
  | nil => exact .nil
  | append_singleton xs x ih =>
      have shorter := length_eraseDups_le xs
      rw [eraseDups_concat, List.length_append, List.length_singleton] at same
      split at same
      · omega
      · next fresh =>
          rw [List.length_append, List.length_singleton] at same
          have front := ih (Nat.add_right_cancel same)
          exact List.nodup_append.mpr ⟨front, by simp, by rintro a seen b last rfl; simp_all⟩

end GoSchema.FirstOccurrence
