import GoSchema.FieldName
import GoSchema.Source.Lexer

/-! # Which names are derived

A derived name is never a keyword, since it does not begin with a lower-case letter. It keeps
every character of its key that is neither a separator nor a letter.
-/

namespace GoSchema.FieldName

theorem not_isLower_of_not_isAlpha {c : Char} (other : c.isAlpha = false) : c.isLower = false :=
  (Bool.or_eq_false_iff.mp other).2

theorem isLower_toUpper (c : Char) : c.toUpper.isLower = false := by
  delta Char.isLower Char.toUpper
  split <;> grind [UInt32.toNat_add, Char.toNat_val]

theorem isAlpha_toUpper (c : Char) : c.toUpper.isAlpha = c.isAlpha := by
  delta Char.isAlpha Char.isUpper Char.isLower Char.toUpper
  split <;> grind [UInt32.toNat_add, Char.toNat_val]

theorem toUpper_toUpper (c : Char) : c.toUpper.toUpper = c.toUpper := by
  have outside : ¬(c.toUpper.val ≥ 'a'.val ∧ c.toUpper.val ≤ 'z'.val) := by
    rintro ⟨above, below⟩
    have lower : c.toUpper.isLower = true :=
      Bool.and_eq_true_iff.mpr ⟨decide_eq_true above, decide_eq_true below⟩
    rw [isLower_toUpper] at lower
    cases lower
  exact dif_neg outside

theorem ofChars_head {cs : List Char} {c : Char} (head : (ofChars cs).head? = some c) :
    c.isLower = false := by
  unfold ofChars at head
  split at head
  · rename_i d rest
    split at head
    · cases head
      exact isLower_toUpper _
    · rename_i other
      rw [Bool.not_eq_true] at other
      cases rest with
      | nil =>
          cases head
          exact not_isLower_of_not_isAlpha other
      | cons e rest =>
          rw [joinWords] at head
          split at head
          · rename_i separated
            cases head
            exact isLower_toUpper _
          · cases head
            exact not_isLower_of_not_isAlpha other
  · cases head

theorem keyword_head {word : String} (keyword : Source.isKeyword word = true) :
    ∃ c, word.toList.head? = some c ∧ c.isLower = true := by
  have all : ∀ word ∈ Source.keywords, word.toList.head?.any Char.isLower = true := by decide
  exact (Option.any_eq_true _ _).mp (all word (List.contains_iff_mem.mp keyword))

theorem not_isKeyword_ofKey (key : String) : Source.isKeyword (ofKey key) = false := by
  rw [← Bool.not_eq_true]
  intro keyword
  obtain ⟨c, head, lower⟩ := keyword_head keyword
  rw [ofKey, String.toList_ofList] at head
  rw [ofChars_head head] at lower
  cases lower

/-- A character that is neither a separator nor a letter. -/
def Fixed (c : Char) : Prop :=
  isSeparator c = false ∧ c.isAlpha = false

instance (c : Char) : Decidable (Fixed c) :=
  inferInstanceAs (Decidable (_ ∧ _))

theorem mem_joinWords {c : Char} {cs : List Char} (fixed : Fixed c) (member : c ∈ cs) :
    c ∈ joinWords cs := by
  induction cs using joinWords.induct with
  | case1 d e rest joined ih =>
      obtain ⟨separator, letter⟩ := Bool.and_eq_true_iff.mp joined
      rw [joinWords, if_pos joined]
      rcases List.mem_cons.mp member with rfl | later
      · rw [fixed.1] at separator
        cases separator
      · rcases List.mem_cons.mp later with rfl | later
        · rw [fixed.2] at letter
          cases letter
        · exact List.mem_cons_of_mem _ (ih later)
  | case2 d e rest apart ih =>
      rw [joinWords, if_neg apart]
      rcases List.mem_cons.mp member with rfl | later
      · exact List.mem_cons_self
      · exact List.mem_cons_of_mem _ (ih later)
  | case3 d => exact member
  | case4 => cases member

/-- A name keeps such characters of its key. -/
theorem mem_ofKey {c : Char} {key : String} (fixed : Fixed c) (member : c ∈ key.toList) :
    c ∈ (ofKey key).toList := by
  rw [ofKey, String.toList_ofList]
  unfold ofChars
  split
  · rename_i d rest chars
    rw [chars] at member
    split
    · rename_i letter
      rcases List.mem_cons.mp member with rfl | later
      · rw [fixed.2] at letter
        cases letter
      · exact List.mem_cons_of_mem _ (mem_joinWords fixed later)
    · exact mem_joinWords fixed member
  · rename_i chars
    rw [chars] at member
    cases member

theorem mem_of_mem_joinWords {c : Char} {cs : List Char} (fixed : Fixed c)
    (member : c ∈ joinWords cs) : c ∈ cs := by
  induction cs using joinWords.induct with
  | case1 d e rest joined ih =>
      obtain ⟨-, letter⟩ := Bool.and_eq_true_iff.mp joined
      rw [joinWords, if_pos joined] at member
      rcases List.mem_cons.mp member with rfl | later
      · rw [Fixed, isAlpha_toUpper, letter] at fixed
        cases fixed.2
      · exact List.mem_cons_of_mem _ (List.mem_cons_of_mem _ (ih later))
  | case2 d e rest apart ih =>
      rw [joinWords, if_neg apart] at member
      rcases List.mem_cons.mp member with rfl | later
      · exact List.mem_cons_self
      · exact List.mem_cons_of_mem _ (ih later)
  | case3 d => exact member
  | case4 => cases member

theorem mem_of_mem_ofKey {c : Char} {key : String} (fixed : Fixed c)
    (member : c ∈ (ofKey key).toList) : c ∈ key.toList := by
  rw [ofKey, String.toList_ofList] at member
  unfold ofChars at member
  split at member
  · rename_i d rest chars
    rw [chars]
    split at member
    · rename_i letter
      rcases List.mem_cons.mp member with rfl | later
      · rw [Fixed, isAlpha_toUpper, letter] at fixed
        cases fixed.2
      · exact List.mem_cons_of_mem _ (mem_of_mem_joinWords fixed later)
    · exact mem_of_mem_joinWords fixed member
  · cases member

end GoSchema.FieldName
