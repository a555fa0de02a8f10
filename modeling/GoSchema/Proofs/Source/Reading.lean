import GoSchema.Proofs.Source.Derivation
import GoSchema.Source.Grammar

/-! # Reading is deriving

A reading succeeds on the tokens that derive from the grammar and on no others. Each phase is
described by the tokens it can go on with: a front that derives what the phase waits for, and a
rest that is read in the phase after it.
-/

namespace GoSchema.Source

namespace Reading

/-- Reading on, these tokens and then the end give these declarations. -/
def Yields (r : Reading) (ks : List Kind) (decls : List TypeDecl) : Prop :=
  ∃ i, r.run i ks = .ok decls

variable {r q : Reading} {k : Kind} {ks : List Kind} {decls : List TypeDecl}

theorem run_finished (finished : r.phase = .finished) (i : Nat) : r.run i ks = .ok r.decls := by
  cases ks with
  | nil => simp [run, step, finished]
  | cons k ks => simp [run, step, finished]

theorem run_number (i j : Nat) : r.run i ks = .ok decls → r.run j ks = .ok decls := by
  induction ks generalizing r i j with
  | nil =>
      intro read
      unfold run at read ⊢
      split at read
      · cases read
      · exact read
  | cons k ks ih =>
      intro read
      unfold run at read ⊢
      split at read
      · cases read
      · split at read
        · rename_i finished
          rw [if_pos finished]
          exact read
        · rename_i going
          rw [if_neg going]
          exact ih (i + 1) (j + 1) read

theorem yields_nil : r.Yields [] decls ↔ ∃ r', r.step .eof = .ok r' ∧ r'.decls = decls := by
  unfold Yields run
  cases r.step .eof with
  | error cause => simp
  | ok r' => simp

theorem yields_cons : r.Yields (k :: ks) decls ↔ ∃ r', r.step k = .ok r' ∧ r'.Yields ks decls := by
  unfold Yields
  constructor
  · intro given
    obtain ⟨i, read⟩ := given
    rw [run] at read
    split at read
    · cases read
    · rename_i r' next
      refine ⟨r', next, ?_⟩
      split at read
      · rename_i finished
        exact ⟨i, by rw [run_finished finished, read]⟩
      · exact ⟨i + 1, read⟩
  · intro given
    obtain ⟨r', next, i, read⟩ := given
    refine ⟨i, ?_⟩
    rw [run]
    simp only [next]
    split
    · rename_i finished
      rw [← read, run_finished finished]
    · exact run_number i (i + 1) read

/-- A token that leads on from one reading to another. -/
theorem yields_step (next : r.step k = .ok q) :
    r.Yields (k :: ks) decls ↔ q.Yields ks decls := by
  rw [yields_cons]
  constructor
  · intro given
    obtain ⟨r', next', rest⟩ := given
    rw [next] at next'
    cases next'
    exact rest
  · intro rest
    exact ⟨q, next, rest⟩

theorem not_yields {c : Cause} (refused : r.step (ks.headD .eof) = .error c) :
    ¬r.Yields ks decls := by
  cases ks with
  | nil =>
      rw [yields_nil]
      intro given
      obtain ⟨r', next, -⟩ := given
      rw [List.headD_nil, next] at refused
      cases refused
  | cons k ks =>
      rw [yields_cons]
      intro given
      obtain ⟨r', next, -⟩ := given
      rw [List.headD_cons, next] at refused
      cases refused

theorem yields_congr (same : r.step (ks.headD .eof) = q.step (ks.headD .eof)) :
    r.Yields ks decls ↔ q.Yields ks decls := by
  cases ks with
  | nil =>
      rw [List.headD_nil] at same
      rw [yields_nil, yields_nil, same]
  | cons k ks =>
      rw [List.headD_cons] at same
      rw [yields_cons, yields_cons, same]

/-! ## Types -/

theorem fill_move (r : Reading) (phase : Phase) (target : Target) (wrappers : List Wrapper)
    (t : TypeExpr) : (r.move phase).fill target wrappers t = r.fill target wrappers t := by
  induction wrappers generalizing t with
  | nil => cases target <;> rfl
  | cons wrapper wrappers ih =>
      cases wrapper with
      | pointer => exact ih (.pointer t)
      | slice => exact ih (.slice t)
      | mapKey => rfl
      | mapValue key => exact ih (.map key t)

/-- Which type is complete matters, not the phase before it was. -/
theorem complete_move (r : Reading) (phase : Phase) (hole : Hole) (t : TypeExpr) :
    (r.move phase).complete hole t = r.complete hole t :=
  fill_move r phase hole.target hole.wrappers t

theorem complete_phase (r : Reading) (hole : Hole) (t : TypeExpr) :
    (r.complete hole t).phase = .afterDecl ∨
      (∃ struct field, (r.complete hole t).phase = .afterFieldType struct field) ∨
      ∃ hole' key, (r.complete hole t).phase = .atMapKeyEnd hole' key := by
  obtain ⟨wrappers, target⟩ := hole
  induction wrappers generalizing t with
  | nil =>
      cases target with
      | body name => exact .inl rfl
      | field struct blankBefore name => exact .inr (.inl ⟨_, _, rfl⟩)
  | cons wrapper wrappers ih =>
      cases wrapper with
      | pointer => exact ih (.pointer t)
      | slice => exact ih (.slice t)
      | mapKey => exact .inr (.inr ⟨_, _, rfl⟩)
      | mapValue key => exact ih (.map key t)

theorem leaveType_complete (r : Reading) (hole : Hole) (t : TypeExpr) (k : Kind) :
    (r.complete hole t).leaveType k = (r.complete hole t).step k := by
  unfold leaveType step
  rcases complete_phase r hole t with phase | ⟨struct, field, phase⟩ | ⟨hole', key, phase⟩ <;>
    simp only [phase]

theorem step_complete_dot (r : Reading) (hole : Hole) (t : TypeExpr) :
    ∃ cause, (r.complete hole t).step (.punct .dot) = .error cause := by
  unfold step
  rcases complete_phase r hole t with phase | ⟨struct, field, phase⟩ | ⟨hole', key, phase⟩ <;>
    simp only [phase] <;> exact ⟨_, rfl⟩

/-- A reading that waits for a name goes on after a word that is no keyword. -/
theorem yields_name {f : String → Reading} (waits : ∀ k, r.step k = enterName k f) :
    r.Yields ks decls ↔
      ∃ name rest, ks = .word name :: rest ∧ isKeyword name = false ∧
        (f name).Yields rest decls := by
  constructor
  · intro read
    cases ks with
    | nil => exact absurd read (not_yields (waits .eof))
    | cons k rest =>
        obtain ⟨r', step, read⟩ := yields_cons.mp read
        rw [waits] at step
        cases k with
        | word name =>
            simp only [enterName] at step
            split at step
            · cases step
            · rename_i free
              cases step
              exact ⟨name, rest, rfl, by simpa using free, read⟩
        | _ => cases step
  · intro given
    obtain ⟨name, rest, rfl, free, read⟩ := given
    exact (yields_step (by rw [waits]; simp [enterName, free])).mpr read

/-- A reading that waits for a punctuation mark goes on after it. -/
theorem yields_punct {m : Punct} (waits : ∀ k, r.step k = enterPunct m k q) :
    r.Yields ks decls ↔ ∃ rest, ks = .punct m :: rest ∧ q.Yields rest decls := by
  constructor
  · intro read
    cases ks with
    | nil => exact absurd read (not_yields (waits .eof))
    | cons k rest =>
        obtain ⟨r', step, read⟩ := yields_cons.mp read
        rw [waits, enterPunct] at step
        split at step
        · rename_i here
          cases step
          exact ⟨rest, by rw [here], read⟩
        · cases step
  · intro given
    obtain ⟨rest, rfl, read⟩ := given
    exact (yields_step (by rw [waits, enterPunct, if_pos rfl])).mpr read

theorem afterTypeName_yields {hole : Hole} {name : String} :
    (r.move (.afterTypeName hole name)).Yields ks decls ↔
      (r.complete hole (.name none name)).Yields ks decls ∨
      ∃ other rest, ks = .punct .dot :: .word other :: rest ∧ isKeyword other = false ∧
        (r.complete hole (.name (some name) other)).Yields rest decls := by
  by_cases dot : ks.headD .eof = .punct .dot
  · obtain ⟨rest, rfl⟩ : ∃ rest, ks = .punct .dot :: rest := by
      cases ks with
      | nil => cases dot
      | cons k rest => exact ⟨rest, congrArg (· :: rest) dot⟩
    obtain ⟨cause, refused⟩ := step_complete_dot r hole (.name none name)
    have selects (k : Kind) : (r.move (.atSelector hole name)).step k =
        enterName k fun s => r.complete hole (.name (some name) s) := by
      simp only [step, move, ← complete_move r (.atSelector hole name)]
    have refuses : ¬(r.complete hole (.name none name)).Yields (.punct .dot :: rest) decls :=
      not_yields refused
    rw [or_iff_right refuses, yields_step (q := r.move (.atSelector hole name)) rfl,
      yields_name selects]
    simp
  · rw [or_iff_left]
    · apply yields_congr
      rw [← leaveType_complete, ← complete_move r (.afterTypeName hole name)]
      simp only [step, move]
      rw [if_neg dot]
    · intro given
      obtain ⟨other, rest, rfl, -⟩ := given
      exact dot rfl

theorem afterTypeName_yields_derives {hole : Hole} {name : String} (free : isKeyword name = false) :
    (r.move (.afterTypeName hole name)).Yields ks decls ↔
      ∃ front rest t, .word name :: ks = front ++ rest ∧ DerivesTypeName front t ∧
        (r.complete hole t).Yields rest decls := by
  rw [afterTypeName_yields]
  constructor
  · intro given
    rcases given with read | ⟨other, rest, rfl, free', read⟩
    · exact ⟨[.word name], ks, _, rfl, .plain free, read⟩
    · exact ⟨_, rest, _, rfl, .qualified free free', read⟩
  · intro given
    obtain ⟨front, rest, t, shape, derives, read⟩ := given
    cases derives with
    | plain _ =>
        cases shape
        exact .inl read
    | qualified _ free' =>
        cases shape
        exact .inr ⟨_, rest, rfl, free', read⟩

theorem atSliceEnd_yields {hole : Hole} :
    (r.move (.atSliceEnd hole)).Yields ks decls ↔
      ∃ rest, ks = .punct .rightBracket :: rest ∧
        (r.move (.atType ⟨.slice :: hole.wrappers, hole.target⟩)).Yields rest decls :=
  yields_punct fun _ => rfl

theorem atMap_yields {hole : Hole} :
    (r.move (.atMap hole)).Yields ks decls ↔
      ∃ rest, ks = .punct .leftBracket :: rest ∧
        (r.move (.atType ⟨.mapKey :: hole.wrappers, hole.target⟩)).Yields rest decls :=
  yields_punct fun _ => rfl

theorem atMapKeyEnd_yields {hole : Hole} {key : TypeExpr} :
    (r.move (.atMapKeyEnd hole key)).Yields ks decls ↔
      ∃ rest, ks = .punct .rightBracket :: rest ∧
        (r.move (.atType ⟨.mapValue key :: hole.wrappers, hole.target⟩)).Yields rest decls :=
  yields_punct fun _ => rfl

theorem atInterface_yields {hole : Hole} :
    (r.move (.atInterface hole)).Yields ks decls ↔
      ∃ rest, ks = .punct .leftBrace :: rest ∧
        (r.move (.atInterfaceEnd hole)).Yields rest decls :=
  yields_punct fun _ => rfl

/-- What may stand between the braces of an interface. -/
theorem atInterfaceEnd_yields {hole : Hole} :
    (r.move (.atInterfaceEnd hole)).Yields ks decls ↔
      ∃ seps rest, ks = seps ++ .punct .rightBrace :: rest ∧ Separators seps ∧
        (r.complete hole .interface).Yields rest decls := by
  constructor
  · intro read
    induction ks with
    | nil => exact absurd read (not_yields rfl)
    | cons k ks ih =>
        obtain ⟨r', next, read⟩ := yields_cons.mp read
        simp only [step, move] at next
        split at next
        · rename_i separator
          cases next
          obtain ⟨seps, rest, rfl, separators, read⟩ := ih read
          exact ⟨k :: seps, rest, rfl, List.forall_mem_cons.mpr ⟨separator, separators⟩, read⟩
        · rw [enterPunct] at next
          split at next
          · rename_i here
            cases next
            refine ⟨[], ks, by rw [here]; rfl, List.forall_mem_nil _, ?_⟩
            rw [← complete_move r (.atInterfaceEnd hole)]
            exact read
          · cases next
  · intro given
    obtain ⟨seps, rest, rfl, separators, read⟩ := given
    induction seps with
    | nil =>
        rw [← complete_move r (.atInterfaceEnd hole)] at read
        exact (yields_step rfl).mpr read
    | cons k seps ih =>
        obtain ⟨separator, separators⟩ := List.forall_mem_cons.mp separators
        exact (yields_step (by simp only [step, move]; rw [if_pos separator])).mpr (ih separators)

theorem enterType_name {hole : Hole} {name : String} (free : isKeyword name = false) :
    r.enterType hole (.word name) = .ok (r.move (.afterTypeName hole name)) := by
  have struct : name ≠ "struct" := by rintro rfl; cases free
  have interface : name ≠ "interface" := by rintro rfl; cases free
  have map : name ≠ "map" := by rintro rfl; cases free
  simp only [enterType]
  rw [if_neg struct, if_neg interface, if_neg map, if_neg (by simp [free])]

theorem enterType_cases {hole : Hole} (next : r.enterType hole k = .ok q) :
    (∃ name, k = .word name ∧ isKeyword name = false ∧ q = r.move (.afterTypeName hole name)) ∨
    (k = .word "interface" ∧ q = r.move (.atInterface hole)) ∨
    (k = .word "map" ∧ q = r.move (.atMap hole)) ∨
    (k = .punct .star ∧ q = r.wrap hole .pointer) ∨
    (k = .punct .leftBracket ∧ q = r.move (.atSliceEnd hole)) := by
  unfold enterType at next
  split at next
  · split at next
    · cases next
    split at next
    · rename_i here
      cases next
      exact .inr (.inl ⟨by rw [here], rfl⟩)
    split at next
    · rename_i here
      cases next
      exact .inr (.inr (.inl ⟨by rw [here], rfl⟩))
    split at next
    · cases next
    · rename_i name _ _ _ free
      cases next
      exact .inl ⟨name, rfl, by simpa using free, rfl⟩
  · cases next
    exact .inr (.inr (.inr (.inl ⟨rfl, rfl⟩)))
  · cases next
    exact .inr (.inr (.inr (.inr ⟨rfl, rfl⟩)))
  · cases next

theorem step_atType {hole : Hole} (next : r.enterType hole k = .ok q) :
    (r.move (.atType hole)).Yields (k :: ks) decls ↔ q.Yields ks decls :=
  yields_step next

theorem atType_yields_of_derives {hole : Hole} {front rest : List Kind} {t : TypeExpr}
    (derives : DerivesType front t) (read : (r.complete hole t).Yields rest decls) :
    (r.move (.atType hole)).Yields (front ++ rest) decls := by
  induction derives generalizing hole rest with
  | named name =>
      obtain ⟨word, more, rfl, free⟩ := name.exists_word
      apply (step_atType (enterType_name free)).mpr
      exact (afterTypeName_yields_derives free).mpr ⟨_, rest, _, rfl, name, read⟩
  | pointer target ih => exact (step_atType rfl).mpr (ih read)
  | slice element ih =>
      exact (step_atType rfl).mpr (atSliceEnd_yields.mpr ⟨_, rfl, ih read⟩)
  | @map ks t ls u key value ihKey ihValue =>
      rw [List.cons_append, List.cons_append, List.append_assoc, List.cons_append]
      refine (step_atType rfl).mpr (atMap_yields.mpr ⟨_, rfl, ihKey ?_⟩)
      exact atMapKeyEnd_yields.mpr ⟨_, rfl, ihValue read⟩
  | interface separators =>
      refine (step_atType rfl).mpr (atInterface_yields.mpr ⟨_, rfl, atInterfaceEnd_yields.mpr ?_⟩)
      exact ⟨_, rest, by simp, separators, read⟩

theorem exists_derives_of_atType_yields {hole : Hole}
    (read : (r.move (.atType hole)).Yields ks decls) :
    ∃ front rest t, ks = front ++ rest ∧ DerivesType front t ∧
      (r.complete hole t).Yields rest decls := by
  -- the key of a map is as long as it wants, so the induction is on the number of tokens
  induction size : ks.length using Nat.strongRecOn generalizing ks hole with
  | ind size ih =>
  subst size
  cases ks with
  | nil => exact absurd read (not_yields rfl)
  | cons k ks =>
  obtain ⟨r', next, read⟩ := yields_cons.mp read
  replace next : r.enterType hole k = .ok r' := next
  rcases enterType_cases next with ⟨name, rfl, free, rfl⟩ | ⟨rfl, rfl⟩ | ⟨rfl, rfl⟩ | ⟨rfl, rfl⟩ |
    ⟨rfl, rfl⟩
  · obtain ⟨front, rest, t, shape, derives, left⟩ := (afterTypeName_yields_derives free).mp read
    exact ⟨front, rest, t, shape, .named derives, left⟩
  · obtain ⟨ks, rfl, opened⟩ := atInterface_yields.mp read
    obtain ⟨seps, rest, rfl, separators, closed⟩ := atInterfaceEnd_yields.mp opened
    exact ⟨_, rest, _, by simp, .interface separators, closed⟩
  · obtain ⟨ks, rfl, opened⟩ := atMap_yields.mp read
    obtain ⟨front, after, key, rfl, derives, complete⟩ :=
      ih _ (by simp only [List.length_cons]; omega) opened rfl
    obtain ⟨ks, rfl, closed⟩ := atMapKeyEnd_yields.mp complete
    obtain ⟨front', rest, value, rfl, derives', left⟩ := ih _ (by simp; omega) closed rfl
    exact ⟨_, rest, _, by simp, .map derives derives', left⟩
  · obtain ⟨front, rest, t, rfl, derives, left⟩ := ih _ (by simp) read rfl
    exact ⟨_, rest, _, rfl, .pointer derives, left⟩
  · obtain ⟨ks, rfl, closed⟩ := atSliceEnd_yields.mp read
    obtain ⟨front, rest, t, rfl, derives, left⟩ :=
      ih _ (by simp only [List.length_cons]; omega) closed rfl
    exact ⟨_, rest, _, rfl, .slice derives, left⟩

/-- A type that is waited for derives from a front of the tokens. -/
theorem atType_yields {hole : Hole} :
    (r.move (.atType hole)).Yields ks decls ↔
      ∃ front rest t, ks = front ++ rest ∧ DerivesType front t ∧
        (r.complete hole t).Yields rest decls := by
  constructor
  · exact exists_derives_of_atType_yields
  · intro given
    obtain ⟨front, rest, t, rfl, derives, read⟩ := given
    exact atType_yields_of_derives derives read

end Reading

end GoSchema.Source
