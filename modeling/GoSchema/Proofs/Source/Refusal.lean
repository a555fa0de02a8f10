import GoSchema.Proofs.Source.FileReading
import Mathlib.Data.List.Nodup

/-! # Which token is refused

A reading that has not stopped can be finished, whatever it has read. So the token that is refused
is the first one with which the tokens before it cannot go on, and no token after it matters.
-/

namespace GoSchema.Source

/-- A cause in the reading of tokens names the token that is refused. -/
def Cause.Refuses : Cause → Kind → Prop
  | .unexpected _ found, k => k = found
  | .inlineStruct, k => k = .word "struct"
  | .nameList, k => k = .punct .comma
  | _, _ => False

namespace Reading

variable {r q : Reading} {k : Kind} {ks : List Kind} {decls : List TypeDecl} {c : Cause}

/-! ## The cause -/

theorem enterType_refuses {hole : Hole} (refused : r.enterType hole k = .error c) :
    c.Refuses k := by
  unfold enterType at refused
  repeat' split at refused
  all_goals cases refused
  all_goals simp_all [Cause.Refuses]

theorem enterName_refuses {next : String → Reading} (refused : enterName k next = .error c) :
    c.Refuses k := by
  unfold enterName at refused
  repeat' split at refused
  all_goals cases refused
  all_goals rfl

theorem enterPunct_refuses {mark : Punct} {next : Reading}
    (refused : enterPunct mark k next = .error c) : c.Refuses k := by
  unfold enterPunct at refused
  split at refused
  all_goals cases refused
  rfl

theorem leaveDecl_refuses (refused : r.leaveDecl k = .error c) : c.Refuses k := by
  unfold leaveDecl at refused
  split at refused
  all_goals cases refused
  rfl

theorem leaveFieldType_refuses {struct : OpenStruct} {field : FieldDecl}
    (refused : r.leaveFieldType struct field k = .error c) : c.Refuses k := by
  unfold leaveFieldType leaveField at refused
  repeat' split at refused
  all_goals cases refused
  all_goals rfl

theorem leaveType_refuses (refused : r.leaveType k = .error c) : c.Refuses k := by
  unfold leaveType at refused
  split at refused
  · exact leaveDecl_refuses refused
  · exact leaveFieldType_refuses refused
  · exact enterPunct_refuses refused
  · cases refused
    rfl

theorem leaveField_refuses {struct : OpenStruct} (refused : r.leaveField struct k = .error c) :
    c.Refuses k := by
  unfold leaveField at refused
  split at refused
  all_goals cases refused
  all_goals rfl

theorem enterField_refuses {struct : OpenStruct} {newlines : Nat}
    (refused : r.enterField struct newlines k = .error c) : c.Refuses k := by
  unfold enterField at refused
  dsimp only at refused
  repeat' split at refused
  all_goals cases refused
  all_goals rfl

theorem leaveFieldName_refuses {struct : OpenStruct} {blankBefore : Bool} {name : String}
    (refused : r.leaveFieldName struct blankBefore name k = .error c) : c.Refuses k := by
  unfold leaveFieldName at refused
  split at refused
  case h_1 => cases refused
  case h_7 =>
    cases refused
    rfl
  case h_8 => exact enterType_refuses refused
  all_goals exact leaveFieldType_refuses refused

/-- The cause of a refusal names the token that came. -/
theorem step_refuses (refused : r.step k = .error c) : c.Refuses k := by
  obtain ⟨done, phase⟩ := r
  cases phase with
  | atDecl =>
      unfold step at refused
      dsimp only at refused
      repeat' split at refused
      all_goals cases refused
      all_goals rfl
  | atBody name =>
      simp only [step] at refused
      split at refused
      · cases refused
      · exact enterType_refuses refused
  | afterTypeName hole name =>
      simp only [step] at refused
      split at refused
      · cases refused
      · exact leaveType_refuses refused
  | atInterfaceEnd hole =>
      simp only [step] at refused
      split at refused
      · cases refused
      · exact enterPunct_refuses refused
  | atDeclName | atSelector | atEmbeddedPointer => exact enterName_refuses refused
  | atSliceEnd | atMap | atMapKeyEnd | atInterface | atStruct => exact enterPunct_refuses refused
  | atType => exact enterType_refuses refused
  | afterDecl => exact leaveDecl_refuses refused
  | atField => exact enterField_refuses refused
  | afterFieldName => exact leaveFieldName_refuses refused
  | afterFieldType => exact leaveFieldType_refuses refused
  | afterField => exact leaveField_refuses refused
  | finished => cases refused

/-! ## Finishing a reading -/

/-- Some tokens before the end of the text lead to declarations. -/
def CanFinish (r : Reading) : Prop :=
  ∃ ks decls, .eof ∉ ks ∧ r.Yields ks decls

theorem CanFinish.step (next : r.step k = .ok q) (solid : k ≠ .eof) (rest : q.CanFinish) :
    r.CanFinish := by
  obtain ⟨ks, decls, endless, read⟩ := rest
  exact ⟨k :: ks, decls, by simp [endless, Ne.symm solid], (yields_step next).mpr read⟩

theorem canFinish_of_eof (next : r.step .eof = .ok q) : r.CanFinish :=
  ⟨[], _, List.not_mem_nil, yields_nil.mpr ⟨q, next, rfl⟩⟩

theorem canFinish_declare (decl : TypeDecl) : (r.declare decl).CanFinish :=
  canFinish_of_eof rfl

theorem canFinish_afterTypeName {hole : Hole} {name : String}
    (rest : (r.complete hole (.name none name)).CanFinish) :
    (r.move (.afterTypeName hole name)).CanFinish := by
  obtain ⟨ks, decls, endless, read⟩ := rest
  exact ⟨ks, decls, endless, afterTypeName_yields.mpr (.inl read)⟩

/-- The place of a type is filled by `int`. -/
theorem canFinish_atType {hole : Hole}
    (rest : (r.complete hole (.name none "int")).CanFinish) :
    (r.move (.atType hole)).CanFinish := by
  have next : (r.move (.atType hole)).step (.word "int") =
      .ok (r.move (.afterTypeName hole "int")) := rfl
  exact .step next (by decide) (canFinish_afterTypeName rest)

theorem canFinish_complete (r : Reading) (hole : Hole) (t : TypeExpr) :
    (r.complete hole t).CanFinish := by
  obtain ⟨wrappers, target⟩ := hole
  induction wrappers generalizing r t with
  | nil =>
      cases target with
      | body name => exact canFinish_declare _
      | field struct blankBefore name =>
          exact .step (k := .punct .rightBrace) rfl (by decide) (canFinish_declare _)
  | cons wrapper wrappers ih =>
      cases wrapper with
      | pointer => exact ih r (.pointer t)
      | slice => exact ih r (.slice t)
      | mapKey =>
          refine .step (k := .punct .rightBracket) rfl (by decide) (canFinish_atType ?_)
          exact ih _ (.map t (.name none "int"))
      | mapValue key => exact ih r (.map key t)

/-- Every reading can be finished. -/
theorem canFinish (r : Reading) : r.CanFinish := by
  obtain ⟨done, phase⟩ := r
  let r : Reading := ⟨done, phase⟩
  have type (hole : Hole) : (r.move (.atType hole)).CanFinish :=
    canFinish_atType (canFinish_complete r hole _)
  have typeName (hole : Hole) (name : String) : (r.move (.afterTypeName hole name)).CanFinish :=
    canFinish_afterTypeName (canFinish_complete r hole _)
  have body (name : String) : (r.move (.atBody name)).CanFinish :=
    .step (k := .word "int") rfl (by decide) (typeName _ "int")
  have field (struct : OpenStruct) (newlines : Nat) : (r.move (.atField struct newlines)).CanFinish :=
    .step (k := .punct .rightBrace) rfl (by decide) (canFinish_declare _)
  have interface (hole : Hole) : (r.move (.atInterfaceEnd hole)).CanFinish :=
    .step (k := .punct .rightBrace) rfl (by decide) (canFinish_complete _ hole .interface)
  cases phase with
  | atDecl | afterDecl | finished => exact canFinish_of_eof rfl
  | atDeclName => exact .step (k := .word "T") rfl (by decide) (body "T")
  | atBody name => exact body name
  | atType hole => exact type hole
  | afterTypeName hole name => exact typeName hole name
  | atSelector hole package =>
      exact .step (k := .word "T") rfl (by decide) (canFinish_complete _ hole _)
  | atSliceEnd hole => exact .step (k := .punct .rightBracket) rfl (by decide) (type _)
  | atMap hole => exact .step (k := .punct .leftBracket) rfl (by decide) (type _)
  | atMapKeyEnd hole key => exact .step (k := .punct .rightBracket) rfl (by decide) (type _)
  | atInterface hole => exact .step (k := .punct .leftBrace) rfl (by decide) (interface hole)
  | atInterfaceEnd hole => exact interface hole
  | atStruct name => exact .step (k := .punct .leftBrace) rfl (by decide) (field _ 0)
  | atField struct newlines => exact field struct newlines
  | afterFieldName struct blankBefore name =>
      obtain ⟨ks, decls, endless, read⟩ := typeName ⟨[], .field struct blankBefore none⟩ name
      exact ⟨ks, decls, endless, afterFieldName_yields.mpr (.inl read)⟩
  | atEmbeddedPointer struct blankBefore =>
      exact .step (k := .word "T") rfl (by decide) (typeName _ "T")
  | afterFieldType struct field =>
      exact .step (k := .punct .rightBrace) rfl (by decide) (canFinish_declare _)
  | afterField struct =>
      exact .step (k := .punct .rightBrace) rfl (by decide) (canFinish_declare _)

/-! ## The refused token -/

/-- Reading these tokens, none of which is refused, leads from one reading to another. -/
def Reads (r : Reading) (ks : List Kind) (q : Reading) : Prop :=
  ks.foldlM step r = .ok q

theorem reads_cons : r.Reads (k :: ks) q ↔ ∃ p, r.step k = .ok p ∧ p.Reads ks q := by
  simp only [Reads, List.foldlM_cons]
  cases r.step k with
  | error c => simp [bind, Except.bind]
  | ok p => simp [bind, Except.bind]

theorem yields_append {front : List Kind} (reads : r.Reads front q) :
    r.Yields (front ++ ks) decls ↔ q.Yields ks decls := by
  induction front generalizing r with
  | nil =>
      cases reads
      rfl
  | cons k front ih =>
      obtain ⟨p, next, reads⟩ := reads_cons.mp reads
      rw [List.cons_append, yields_step next, ih reads]

/-- A reading that ends with a refusal has read all tokens before it. -/
theorem exists_reads_of_refused {i j : Nat} (refused : r.run i ks = .error (j, c)) :
    ∃ front rest q, ks = front ++ rest ∧ j = i + front.length ∧ r.Reads front q ∧
      q.step (rest.headD .eof) = .error c := by
  induction ks generalizing r i with
  | nil =>
      unfold run at refused
      split at refused
      · rename_i cause here
        cases refused
        exact ⟨[], [], r, rfl, rfl, rfl, here⟩
      · cases refused
  | cons k ks ih =>
      unfold run at refused
      split at refused
      · rename_i cause here
        cases refused
        exact ⟨[], k :: ks, r, rfl, rfl, rfl, here⟩
      · rename_i q next
        split at refused
        · cases refused
        · obtain ⟨front, rest, last, rfl, rfl, reads, here⟩ := ih refused
          refine ⟨k :: front, rest, last, rfl, ?_, reads_cons.mpr ⟨q, next, reads⟩, here⟩
          simp only [List.length_cons]
          omega

end Reading

/-- The refused token is the first one that no file has after the tokens before it. -/
theorem blames_of_refused {ks : List Kind} {i : Nat} {c : Cause}
    (refused : declsOfKinds ks = .error (i, c)) :
    c.Refuses (ks.getD i .eof) ∧
      (∃ more decls, .eof ∉ more ∧ declsOfKinds (ks.take i ++ more ++ [.eof]) = .ok decls) ∧
      ∀ more decls, declsOfKinds (ks.take i ++ ks.getD i .eof :: more) ≠ .ok decls := by
  obtain ⟨front, rest, q, rfl, rfl, reads, here⟩ := Reading.exists_reads_of_refused refused
  have taken : (front ++ rest).take (0 + front.length) = front := by simp
  have found : (front ++ rest).getD (0 + front.length) .eof = rest.headD .eof := by
    cases rest <;> simp
  rw [taken, found]
  refine ⟨Reading.step_refuses here, ?_, ?_⟩
  · obtain ⟨more, decls, endless, read⟩ := q.canFinish
    refine ⟨more, decls, endless, declsOfKinds_eq_ok.mpr (Reading.yields_append_eof.mpr ?_)⟩
    exact (Reading.yields_append reads).mpr read
  · intro more decls read
    have blocked : ¬q.Yields (rest.headD .eof :: more) decls := Reading.not_yields here
    exact blocked ((Reading.yields_append reads).mp (declsOfKinds_eq_ok.mp read))

/-! ## Streams of tokens -/

/-- The end of the text is the last token. -/
def Ended (ts : List Token) : Prop :=
  (ts.map (·.kind)).getLast? = some .eof

instance (ts : List Token) : Decidable (Ended ts) :=
  inferInstanceAs (Decidable (_ = _))

/-- The tokens before number `i` begin a stream that is read, and those up to it do not. -/
structure FirstWrong (ts : List Token) (i : Nat) : Prop where
  completable : ∃ more decls, Ended more ∧ declsOfTokens (ts.take i ++ more) = .ok decls
  hopeless : ∀ us decls, declsOfTokens us = .ok decls →
    ¬(ts.take (i + 1)).map (·.kind) <+: us.map (·.kind)

theorem FirstWrong.le {ts : List Token} {i j : Nat} (one : FirstWrong ts i)
    (other : FirstWrong ts j) : j ≤ i := by
  obtain ⟨more, decls, -, read⟩ := other.completable
  refine Nat.le_of_not_lt fun later => ?_
  apply one.hopeless _ _ read
  rw [List.map_append]
  refine List.IsPrefix.trans ?_ (List.prefix_append _ _)
  exact (List.take_prefix_take_left (by omega)).map _

theorem FirstWrong.unique {ts : List Token} {i j : Nat} (one : FirstWrong ts i)
    (other : FirstWrong ts j) : i = j :=
  Nat.le_antisymm (other.le one) (one.le other)

/-- No stream is refused behind its end. -/
theorem lt_length_of_refused {ts : List Token} (ended : Ended ts) {i : Nat} {c : Cause}
    (refused : declsOfKinds (ts.map (·.kind)) = .error (i, c)) : i < ts.length := by
  refine Nat.lt_of_not_le fun behind => ?_
  obtain ⟨front, split⟩ : ∃ front, ts.map (·.kind) = front ++ [.eof] :=
    List.getLast?_eq_some_iff.mp ended
  obtain ⟨-, ⟨more, decls, -, read⟩, -⟩ := blames_of_refused refused
  rw [List.take_of_length_le (by simpa using behind), split, declsOfKinds_eq_ok] at read
  simp only [List.append_assoc, List.cons_append, List.nil_append, Reading.yields_append_eof] at read
  have accepted : declsOfKinds (front ++ [.eof]) = .ok decls :=
    declsOfKinds_eq_ok.mpr (Reading.yields_append_eof.mpr read)
  rw [split, accepted] at refused
  cases refused

/-- A stream is blamed at a token, which is the first wrong one. -/
theorem exists_firstWrong {ts : List Token} (ended : Ended ts) {e : Error}
    (refused : declsOfTokens ts = .error e) :
    ∃ i, ∃ inside : i < ts.length, e.position = ts[i].position ∧ e.cause.Refuses ts[i].kind ∧
      FirstWrong ts i := by
  unfold declsOfTokens at refused
  cases found : declsOfKinds (ts.map (·.kind)) with
  | ok decls =>
      rw [found] at refused
      cases refused
  | error refusal =>
      obtain ⟨i, cause⟩ := refusal
      rw [found] at refused
      cases refused
      have inside := lt_length_of_refused ended found
      have here : (ts.map (·.kind)).getD i .eof = ts[i].kind := by simp [inside]
      obtain ⟨names, completable, hopeless⟩ := blames_of_refused found
      rw [here] at names hopeless
      refine ⟨i, inside, by simp [inside], names, ?_, ?_⟩
      · obtain ⟨more, decls, -, read⟩ := completable
        refine ⟨(more ++ [Kind.eof]).map (⟨·, .start⟩), decls, by simp [Ended], ?_⟩
        rw [declsOfTokens_eq_ok_iff_kinds]
        simpa [Function.comp_def, List.map_take] using read
      · rintro us decls read ⟨more, begins⟩
        rw [declsOfTokens_eq_ok_iff_kinds, ← begins] at read
        rw [List.take_succ_eq_append_getElem inside, List.map_append, List.map_take,
          List.append_assoc] at read
        exact hopeless more decls read

/-- Where tokens are at different positions, the position of the error is that of the first wrong
one. -/
theorem position_eq_iff {ts : List Token} (ended : Ended ts) {e : Error}
    (refused : declsOfTokens ts = .error e) (distinct : (ts.map (·.position)).Nodup) {i : Nat}
    (inside : i < ts.length) : e.position = ts[i].position ↔ FirstWrong ts i := by
  obtain ⟨j, inside', position, -, wrong⟩ := exists_firstWrong ended refused
  constructor
  · intro here
    have same : j = i := by
      refine (List.getElem?_inj (by simpa using inside') distinct).mp ?_
      simp [inside, inside', ← position, here]
    exact same ▸ wrong
  · intro other
    obtain rfl := other.unique wrong
    exact position

/-- When a stream is refused, the error stands at the first wrong token: those before it can be
completed to a stream that is read, those up to it cannot, and no other token is so. Where tokens
are at different positions, the position of the error tells which one it is. -/
theorem declsOfTokens_blames {ts : List Token} (ended : Ended ts) {e : Error}
    (refused : declsOfTokens ts = .error e) :
    (∃ i, ∃ inside : i < ts.length, e.position = ts[i].position ∧ FirstWrong ts i ∧
        ∀ j, FirstWrong ts j → j = i) ∧
      ((ts.map (·.position)).Nodup → ∀ i, ∀ inside : i < ts.length,
        e.position = ts[i].position → FirstWrong ts i) := by
  obtain ⟨i, inside, position, -, wrong⟩ := exists_firstWrong ended refused
  refine ⟨⟨i, inside, position, wrong, fun j other => other.unique wrong⟩, ?_⟩
  intro distinct j inside' position'
  exact (position_eq_iff ended refused distinct inside').mp position'

/-- After an embedded pointer, `A b` is a field, and one more word is one too many. -/
def strayWord : List Token :=
  [⟨.word "type", ⟨1, 1⟩⟩, ⟨.word "T", ⟨1, 6⟩⟩, ⟨.word "struct", ⟨1, 8⟩⟩,
    ⟨.punct .leftBrace, ⟨1, 15⟩⟩, ⟨.newline, ⟨1, 16⟩⟩, ⟨.punct .star, ⟨2, 1⟩⟩, ⟨.word "p", ⟨2, 2⟩⟩,
    ⟨.punct .dot, ⟨2, 3⟩⟩, ⟨.word "B", ⟨2, 4⟩⟩, ⟨.newline, ⟨2, 5⟩⟩, ⟨.word "A", ⟨3, 1⟩⟩,
    ⟨.word "b", ⟨3, 3⟩⟩, ⟨.word "string", ⟨3, 5⟩⟩, ⟨.newline, ⟨3, 11⟩⟩,
    ⟨.punct .rightBrace, ⟨4, 1⟩⟩, ⟨.eof, ⟨4, 2⟩⟩]

/-- A struct that is never closed, after a word that looks like an embedded type. -/
def openStruct : List Token :=
  [⟨.word "type", ⟨1, 1⟩⟩, ⟨.word "T", ⟨1, 6⟩⟩, ⟨.word "struct", ⟨1, 8⟩⟩,
    ⟨.punct .leftBrace, ⟨1, 15⟩⟩, ⟨.word "A", ⟨1, 16⟩⟩, ⟨.eof, ⟨1, 17⟩⟩]

theorem declsOfTokens_blames_strayWord :
    (Ended strayWord ∧
        declsOfTokens strayWord = .error ⟨⟨3, 5⟩, .unexpected .terminator (.word "string")⟩ ∧
        FirstWrong strayWord 12 ∧ ∀ i, FirstWrong strayWord i → i = 12) ∧
      Ended openStruct ∧ declsOfTokens openStruct = .error ⟨⟨1, 17⟩, .unexpected .field .eof⟩ ∧
        FirstWrong openStruct 5 := by
  have ended : Ended strayWord := by decide
  have refused : declsOfTokens strayWord =
      .error ⟨⟨3, 5⟩, .unexpected .terminator (.word "string")⟩ := rfl
  have wrong := (declsOfTokens_blames ended refused).2 (by decide) 12 (by decide) rfl
  have ended' : Ended openStruct := by decide
  have refused' : declsOfTokens openStruct = .error ⟨⟨1, 17⟩, .unexpected .field .eof⟩ := rfl
  have wrong' := (declsOfTokens_blames ended' refused').2 (by decide) 5 (by decide) rfl
  exact ⟨⟨ended, refused, wrong, fun i other => other.unique wrong⟩, ended', refused', wrong'⟩

end GoSchema.Source
