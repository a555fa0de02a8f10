import GoSchema.Proofs.FieldName

/-! # Words of a name

A separator before an ASCII letter ends one word of a key and starts the next. A name made from a
key that is cut there is the names of its parts, one after the other. Such separators, and the case
of letters, are all that a name loses of its key.
-/

namespace GoSchema.FieldName

theorem not_isAlpha_of_isSeparator {c : Char} (separator : isSeparator c = true) :
    c.isAlpha = false := by
  rcases Bool.or_eq_true_iff.mp separator with same | same <;> rw [beq_iff_eq.mp same] <;> decide

theorem not_isSeparator_of_isAlpha {c : Char} (letter : c.isAlpha = true) :
    isSeparator c = false := by
  rw [← Bool.not_eq_true]
  intro separator
  rw [not_isAlpha_of_isSeparator separator] at letter
  cases letter

theorem joinWords_separated {c d : Char} (separator : isSeparator c = true)
    (letter : d.isAlpha = true) (rest : List Char) :
    joinWords (c :: d :: rest) = d.toUpper :: joinWords rest := by
  rw [joinWords, if_pos (Bool.and_eq_true_iff.mpr ⟨separator, letter⟩)]

theorem joinWords_kept {c d : Char} (kept : ¬(isSeparator c && d.isAlpha) = true)
    (rest : List Char) : joinWords (c :: d :: rest) = c :: joinWords (d :: rest) := by
  rw [joinWords, if_neg kept]

/-- A word that starts behind a separator does not depend on what is in front of it. -/
theorem joinWords_append {s d : Char} (separator : isSeparator s = true)
    (letter : d.isAlpha = true) (cs rest : List Char) :
    joinWords (cs ++ s :: d :: rest) = joinWords cs ++ d.toUpper :: joinWords rest := by
  induction cs using joinWords.induct with
  | case1 c e cs joined ih =>
      obtain ⟨separator', letter'⟩ := Bool.and_eq_true_iff.mp joined
      rw [joinWords_separated separator' letter', List.cons_append, List.cons_append,
        joinWords_separated separator' letter', ih, List.cons_append]
  | case2 c e cs kept ih =>
      rw [joinWords_kept kept, List.cons_append, List.cons_append, joinWords_kept kept,
        ← List.cons_append, ih, List.cons_append]
  | case3 c =>
      -- A separator is no letter, so the one behind `c` does not start a word.
      have kept : ¬(isSeparator c && s.isAlpha) = true := by
        rw [not_isAlpha_of_isSeparator separator, Bool.and_false]
        exact Bool.false_ne_true
      rw [List.singleton_append, joinWords_kept kept, joinWords_separated separator letter]
      rfl
  | case4 => exact joinWords_separated separator letter rest

theorem ofChars_letter {d : Char} (letter : d.isAlpha = true) (rest : List Char) :
    ofChars (d :: rest) = d.toUpper :: joinWords rest := by
  rw [ofChars, if_pos letter]

theorem ofChars_of_not_letter {c : Char} (other : c.isAlpha = false) (rest : List Char) :
    ofChars (c :: rest) = joinWords (c :: rest) := by
  rw [ofChars, if_neg (by simp [other])]

theorem ofChars_append {s d : Char} (separator : isSeparator s = true)
    (letter : d.isAlpha = true) (cs rest : List Char) :
    ofChars (cs ++ s :: d :: rest) = ofChars cs ++ ofChars (d :: rest) := by
  rw [ofChars_letter letter]
  cases cs with
  | nil =>
      rw [List.nil_append, ofChars_of_not_letter (not_isAlpha_of_isSeparator separator),
        joinWords_separated separator letter]
      rfl
  | cons c cs =>
      rw [List.cons_append]
      cases first : c.isAlpha with
      | true =>
          rw [ofChars_letter first, ofChars_letter first, joinWords_append separator letter,
            List.cons_append]
      | false =>
          rw [ofChars_of_not_letter first, ofChars_of_not_letter first, ← List.cons_append,
            joinWords_append separator letter]

/-! ## What is lost -/

/-- Characters without separators and without the case of ASCII letters. -/
def bare (cs : List Char) : List Char :=
  (cs.filter fun c => !isSeparator c).map Char.toUpper

theorem bare_cons (c : Char) (cs : List Char) :
    bare (c :: cs) = if isSeparator c then bare cs else c.toUpper :: bare cs := by
  cases separator : isSeparator c <;> simp [bare, separator]

theorem bare_toUpper_cons {d : Char} (letter : d.isAlpha = true) {cs rest : List Char}
    (same : bare cs = bare rest) : bare (d.toUpper :: cs) = bare (d :: rest) := by
  have upper : isSeparator d.toUpper = false :=
    not_isSeparator_of_isAlpha ((isAlpha_toUpper d).trans letter)
  rw [bare_cons, bare_cons, upper, not_isSeparator_of_isAlpha letter, same,
    toUpper_toUpper]

theorem bare_joinWords (cs : List Char) : bare (joinWords cs) = bare cs := by
  induction cs using joinWords.induct with
  | case1 c d rest joined ih =>
      obtain ⟨separator, letter⟩ := Bool.and_eq_true_iff.mp joined
      rw [joinWords_separated separator letter, bare_toUpper_cons letter ih, bare_cons c,
        if_pos separator]
  | case2 c d rest kept ih => rw [joinWords_kept kept, bare_cons, ih, ← bare_cons]
  | case3 | case4 => rfl

theorem bare_ofChars (cs : List Char) : bare (ofChars cs) = bare cs := by
  cases cs with
  | nil => rfl
  | cons c cs =>
      cases first : c.isAlpha with
      | true => rw [ofChars_letter first, bare_toUpper_cons first (bare_joinWords cs)]
      | false => rw [ofChars_of_not_letter first, bare_joinWords]

/-- How often a separator stands right before an ASCII letter. -/
def wordStarts (cs : List Char) : Nat :=
  (cs.zip cs.tail).countP fun (c, d) => isSeparator c && d.isAlpha

theorem wordStarts_cons_cons (c d : Char) (rest : List Char) :
    wordStarts (c :: d :: rest) =
      wordStarts (d :: rest) + if (isSeparator c && d.isAlpha) = true then 1 else 0 :=
  List.countP_cons

theorem wordStarts_letter {d : Char} (letter : d.isAlpha = true) (rest : List Char) :
    wordStarts (d :: rest) = wordStarts rest := by
  cases rest with
  | nil => rfl
  | cons e rest =>
      rw [wordStarts_cons_cons, not_isSeparator_of_isAlpha letter]
      rfl

theorem length_joinWords (cs : List Char) :
    (joinWords cs).length + wordStarts cs = cs.length := by
  induction cs using joinWords.induct with
  | case1 c d rest joined ih =>
      obtain ⟨separator, letter⟩ := Bool.and_eq_true_iff.mp joined
      rw [joinWords_separated separator letter, wordStarts_cons_cons, wordStarts_letter letter,
        if_pos joined]
      simp only [List.length_cons]
      omega
  | case2 c d rest kept ih =>
      rw [joinWords_kept kept, wordStarts_cons_cons, if_neg kept]
      simp only [List.length_cons] at ih ⊢
      omega
  | case3 | case4 => rfl

theorem length_ofChars (cs : List Char) : (ofChars cs).length + wordStarts cs = cs.length := by
  cases cs with
  | nil => rfl
  | cons c cs =>
      cases first : c.isAlpha with
      | true =>
          rw [ofChars_letter first, wordStarts_letter first, List.length_cons, List.length_cons,
            Nat.add_right_comm, length_joinWords]
      | false => rw [ofChars_of_not_letter first, length_joinWords]

/-- The name of a key that is cut where a word starts is the names of its parts. A name loses as
many characters as there are such places, and else only the case of ASCII letters. -/
theorem ofKey_composed (key : String) :
    (∀ s next, isSeparator s = true → next.toList.head?.any Char.isAlpha = true →
        ofKey (key ++ String.singleton s ++ next) = ofKey key ++ ofKey next) ∧
      bare (ofKey key).toList = bare key.toList ∧
      (ofKey key).length + wordStarts key.toList = key.length := by
  refine ⟨?_, ?_, ?_⟩
  · intro s next separator letter
    obtain ⟨d, first, letter⟩ := (Option.any_eq_true _ _).mp letter
    obtain ⟨rest, chars⟩ := List.head?_eq_some_iff.mp first
    have cut : (key ++ String.singleton s ++ next).toList = key.toList ++ s :: d :: rest := by
      simp only [String.toList_append, String.toList_singleton, chars, List.append_assoc,
        List.singleton_append]
    rw [ofKey, cut, ofChars_append separator letter, String.ofList_append, ← chars]
    rfl
  · rw [ofKey, String.toList_ofList, bare_ofChars]
  · rw [ofKey, String.length_ofList, length_ofChars, String.length_toList]

/-- The cut stands behind separators that are kept, and the second part has one of its own. -/
theorem ofKey_composed_keptSeparators :
    isSeparator '-' = true ∧ "cD_1-e".toList.head?.any Char.isAlpha = true ∧
      ofKey ("a-_b__" ++ String.singleton '-' ++ "cD_1-e") = ofKey "a-_b__" ++ ofKey "cD_1-e" ∧
      ofKey "a-_b__" ++ ofKey "cD_1-e" = "A-B__CD_1E" ∧
      bare "A-B__".toList = bare "a-_b__".toList ∧
      "A-B__".length + wordStarts "a-_b__".toList = "a-_b__".length := by
  have separator : isSeparator '-' = true := by decide
  have letter : "cD_1-e".toList.head?.any Char.isAlpha = true := by decide
  have name : ofKey "a-_b__" = "A-B__" := by decide
  obtain ⟨cut, same, length⟩ := ofKey_composed "a-_b__"
  rw [name] at same length
  exact ⟨separator, letter, cut '-' "cD_1-e" separator letter, by decide, same, length⟩

end GoSchema.FieldName
