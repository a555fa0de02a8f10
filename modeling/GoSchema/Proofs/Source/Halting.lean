import GoSchema.Proofs.Source.Places
import GoSchema.Proofs.Source.Progress

/-! # The descent comes to an end

Reading by recursive descent gives what reading token by token gives. It always comes to an end, it
never goes past the end of the text, and each time it enters a routine it has gone past a token
since the last time.
-/

namespace GoSchema.Source

namespace Descent

variable {ts : List Token} {n p : Nat} {expected : Except Error (List TypeDecl)} {r q : Reading}
  {c : Cursor} {t : Token} {limit : Nat}

/-! ## Types -/

theorem runs_typeName {hole : Hole} (stream : Stream ts n) (stands : Stands ts n p expected r c)
    (here : ts[c.position]? = some t)
    (waits : r.step t.kind = Reading.enterName t.kind fun s => q.move (.afterTypeName hole s)) :
    Runs (typeName ts) c (Leads ts n p expected (q.complete hole)) := by
  apply (runs_expectName stream stands here waits).leads
  intro name c' passed
  obtain ⟨t', here'⟩ := passed.stands.exists_token stream
  apply Runs.peek here'
  by_cases dot : t'.kind = .punct .dot
  · rw [if_pos dot]
    have next : (q.move (.afterTypeName hole name)).step t'.kind =
        .ok (q.move (.atSelector hole name)) := by
      rw [dot]
      rfl
    apply (runs_bump stream passed.stands.look here' (by simp [dot]) next).leads
    intro _ c'' passed
    obtain ⟨t'', here''⟩ := passed.stands.exists_token stream
    have selects : (q.move (.atSelector hole name)).step t''.kind = Reading.enterName t''.kind
        fun s => q.complete hole (.name (some name) s) := by
      simp only [Reading.step, Reading.move, ← Reading.complete_move q (.atSelector hole name)]
    exact (runs_expectName stream passed.stands here'' selects).leads fun _ _ passed => .pure passed
  · rw [if_neg dot]
    apply Runs.pure
    apply passed.look.congr here'
    rw [← Reading.leaveType_complete, ← Reading.complete_move q (.afterTypeName hole name)]
    simp only [Reading.step, Reading.move]
    rw [if_neg dot]

theorem runs_interfaceType {hole : Hole} (stream : Stream ts n) (enough : n < p + limit)
    (stands : Stands ts n p expected (r.move (.atType hole)) c) (here : ts[c.position]? = some t)
    (begins : t.kind = .word "interface") :
    Runs (interfaceType ts limit) c (Leads ts n p expected (r.complete hole)) := by
  have next : (r.move (.atType hole)).step t.kind = .ok (r.move (.atInterface hole)) := by
    rw [begins]
    rfl
  apply (runs_bump stream stands here (by simp [begins]) next).leads
  intro _ _ passed
  apply (runs_expectPunct stream passed.stands fun _ _ => rfl).leads
  intro _ c' passed
  apply (runs_skipSeparators (f := fun _ => r.move (.atInterfaceEnd hole)) stream enough
    (fun _ => rfl) (fun _ => rfl) 0 c' passed.stands).skips
  intro _ c'' stands solid
  have waits (t') (here' : ts[c''.position]? = some t') :
      (r.move (.atInterfaceEnd hole)).step t'.kind =
        Reading.enterPunct .rightBrace t'.kind (r.complete hole .interface) := by
    obtain ⟨newline, semicolon⟩ := solid t' here'
    rw [← Reading.complete_move r (.atInterfaceEnd hole)]
    simp [Reading.step, Reading.move, newline, semicolon]
  exact (runs_expectPunct stream stands waits).leads fun _ _ passed => .pure passed

section

variable {type : Descent TypeExpr} {hole : Hole}

/-- Wherever a type is missing behind `p`, the procedure reads one. -/
def ReadsTypes (ts : List Token) (n p : Nat) (expected : Except Error (List TypeDecl)) (r : Reading)
    (type : Descent TypeExpr) : Prop :=
  ∀ c hole, Passed ts n p expected (r.move (.atType hole)) c →
    Runs type c (Leads ts n p expected (r.complete hole))

theorem runs_mapType (stream : Stream ts n) (calls : ReadsTypes ts n p expected r type)
    (stands : Stands ts n p expected (r.move (.atType hole)) c) (here : ts[c.position]? = some t)
    (begins : t.kind = .word "map") :
    Runs (mapType ts type) c (Leads ts n p expected (r.complete hole)) := by
  have next : (r.move (.atType hole)).step t.kind = .ok (r.move (.atMap hole)) := by
    rw [begins]
    rfl
  apply (runs_bump stream stands here (by simp [begins]) next).leads
  intro _ _ passed
  apply (runs_expectPunct stream passed.stands fun _ _ => rfl).leads
  intro _ c' passed
  apply (calls c' ⟨.mapKey :: hole.wrappers, hole.target⟩ passed).leads
  intro key _ passed
  apply (runs_expectPunct stream passed.stands fun _ _ => rfl).leads
  intro _ c' passed
  apply (calls c' ⟨.mapValue key :: hole.wrappers, hole.target⟩ passed).leads
  exact fun _ _ passed => .pure passed

theorem runs_pointerType (stream : Stream ts n) (calls : ReadsTypes ts n p expected r type)
    (stands : Stands ts n p expected (r.move (.atType hole)) c) (here : ts[c.position]? = some t)
    (begins : t.kind = .punct .star) :
    Runs (pointerType ts type) c (Leads ts n p expected (r.complete hole)) := by
  have next : (r.move (.atType hole)).step t.kind =
      .ok (r.move (.atType ⟨.pointer :: hole.wrappers, hole.target⟩)) := by
    rw [begins]
    rfl
  apply (runs_bump stream stands here (by simp [begins]) next).leads
  intro _ c' passed
  apply (calls c' ⟨.pointer :: hole.wrappers, hole.target⟩ passed).leads
  exact fun _ _ passed => .pure passed

theorem runs_sliceType (stream : Stream ts n) (calls : ReadsTypes ts n p expected r type)
    (stands : Stands ts n p expected (r.move (.atType hole)) c) (here : ts[c.position]? = some t)
    (begins : t.kind = .punct .leftBracket) :
    Runs (sliceType ts type) c (Leads ts n p expected (r.complete hole)) := by
  have next : (r.move (.atType hole)).step t.kind = .ok (r.move (.atSliceEnd hole)) := by
    rw [begins]
    rfl
  apply (runs_bump stream stands here (by simp [begins]) next).leads
  intro _ _ passed
  apply (runs_expectPunct stream passed.stands fun _ _ => rfl).leads
  intro _ c' passed
  apply (calls c' ⟨.slice :: hole.wrappers, hole.target⟩ passed).leads
  exact fun _ _ passed => .pure passed

theorem runs_typeFrom (stream : Stream ts n) (enough : n < p + limit)
    (calls : ReadsTypes ts n p expected r type)
    (stands : Stands ts n p expected (r.move (.atType hole)) c) (here : ts[c.position]? = some t) :
    Runs (typeFrom ts type limit t) c (Leads ts n p expected (r.complete hole)) := by
  rw [typeFrom]
  cases kind : t.kind with
  | word s =>
      dsimp only
      split
      · rename_i inline
        apply Runs.throw
        apply stands.refused here
        rw [kind, inline]
        rfl
      split
      · rename_i interface
        exact runs_interfaceType stream enough stands here (interface ▸ kind)
      split
      · rename_i map
        exact runs_mapType stream calls stands here (map ▸ kind)
      split
      · rename_i noStruct noInterface noMap keyword
        apply runs_unexpected stands here
        rw [kind]
        simp [Reading.step, Reading.move, Reading.enterType, noStruct, noInterface, noMap, keyword,
          Reading.refuse]
      · rename_i noStruct noInterface noMap name
        apply runs_typeName stream stands here
        rw [kind]
        simp [Reading.step, Reading.move, Reading.enterType, noStruct, noInterface, noMap, name,
          Reading.enterName]
  | punct mark =>
      cases mark with
      | star => exact runs_pointerType stream calls stands here kind
      | leftBracket => exact runs_sliceType stream calls stands here kind
      | _ =>
          apply runs_unexpected stands here
          rw [kind]
          rfl
  | _ =>
      apply runs_unexpected stands here
      rw [kind]
      rfl

end

theorem runs_type {hole : Hole} (stream : Stream ts n) (enough : n < p + limit)
    (passed : Passed ts n p expected (r.move (.atType hole)) c) :
    Runs (type ts limit) c (Leads ts n p expected (r.complete hole)) := by
  induction limit generalizing p hole c with
  | zero =>
      have beyond := passed.beyond
      have inside := passed.fresh.inside
      omega
  | succ limit ih =>
      have beyond := passed.beyond
      obtain ⟨t, here⟩ := passed.stands.exists_token stream
      have still : ts[(c.enter .type).position]? = some t := here
      have stands : Stands ts n c.position expected (r.move (.atType hole)) (c.enter .type) :=
        ⟨passed.fresh.enter .type, Nat.le_refl _, passed.agrees⟩
      have calls : ReadsTypes ts n c.position expected r (type ts limit) :=
        fun _ _ passed => ih (by omega) passed
      have runs : Runs (type ts (limit + 1)) c
          (Leads ts n c.position expected (r.complete hole)) := by
        rw [type]
        apply Runs.enter
        apply Runs.peek still
        exact runs_typeFrom stream (by omega) calls stands.look still
      exact runs.mono fun _ _ leads => leads.mono (Nat.le_of_lt beyond)

/-! ## Fields -/

section

variable {struct : OpenStruct} {blankBefore : Bool} {name : String} {k : Kind}

theorem step_atType_word {hole : Hole} (free : isKeyword name = false) :
    (r.move (.atType hole)).step (.word name) = .ok (r.move (.afterTypeName hole name)) :=
  Reading.enterType_name free

theorem step_embedded (ends : endsEmbedded k = true) :
    (r.move (.afterFieldName struct blankBefore name)).step k =
      (r.move (.afterTypeName ⟨[], .field struct blankBefore none⟩ name)).step k := by
  cases k with
  | punct mark => cases mark <;> first | rfl | cases ends
  | newline | eof | str => rfl
  | _ => cases ends

theorem step_named (going : endsEmbedded k = false) (alone : k ≠ .punct .comma) :
    (r.move (.afterFieldName struct blankBefore name)).step k =
      (r.move (.atType ⟨[], .field struct blankBefore (some name)⟩)).step k := by
  cases k with
  | punct mark =>
      cases mark with
      | comma => exact absurd rfl alone
      | semicolon | rightBrace | dot => cases going
      | _ => rfl
  | newline | eof | str => cases going
  | _ => rfl

end

variable {struct : OpenStruct} {newlines : Nat}

/-- A name that turns out to be an embedded field is read on as a type would be. -/
theorem Stands.embedded {name : String} {t' : Token}
    (stands : Stands ts n p expected (r.move (.atField struct newlines)) c)
    (here : ts[c.position]? = some t) (begins : t.kind = .word name)
    (free : isKeyword name = false) (here' : ts[c.position + 1]? = some t')
    (ends : endsEmbedded t'.kind = true) :
    Stands ts n p expected (r.move (.atType ⟨[], .field struct
      (decide (1 < newlines) && !struct.fields.isEmpty) none⟩)) c := by
  refine ⟨stands.sound, stands.beyond, ?_⟩
  rw [stands.agrees, resume_ok here (begins ▸ Reading.step_atField_word free),
    resume_congr here' (step_embedded ends), resume_ok here (begins ▸ step_atType_word free)]

theorem runs_fieldType (stream : Stream ts n) (enough : n < p + limit)
    (stands : Stands ts n p expected (r.move (.atField struct newlines)) c)
    (here : ts[c.position]? = some t)
    (solid : t.kind ≠ .newline ∧ t.kind ≠ .punct .semicolon) (inner : t.kind ≠ .punct .rightBrace) :
    Runs (fieldType ts limit) c (Leads ts n p expected fun typed => r.move (.afterFieldType struct
      ⟨typed.1, typed.2, none, decide (1 < newlines) && !struct.fields.isEmpty⟩)) := by
  let blankBefore := decide (1 < newlines) && !struct.fields.isEmpty
  apply Runs.peek here
  cases kind : t.kind with
  | word s =>
      have more : t.kind ≠ .eof := by simp [kind]
      have inside := stream.lt_of_solid stands.sound.inside here more
      by_cases keyword : isKeyword s = true
      · simp only [keyword, reduceIte]
        apply runs_unexpected stands.look here
        rw [kind]
        simp [Reading.step, Reading.move, Reading.enterField, keyword, Reading.refuse]
      · simp only [keyword]
        have free : isKeyword s = false := by simpa using keyword
        obtain ⟨t', here'⟩ := stream.exists_token inside
        have looked : Stands ts n p expected (r.move (.atField struct newlines))
            ((c.look 0).look 1) := stands.look.lookAhead inside
        apply Runs.peek here'
        cases ends : endsEmbedded t'.kind with
        | true =>
            have embedded := looked.embedded here kind free here' ends
            have waits : (r.move (.atType ⟨[], .field struct blankBefore none⟩)).step t.kind =
                Reading.enterName t.kind fun s =>
                  r.move (.afterTypeName ⟨[], .field struct blankBefore none⟩ s) := by
              rw [kind, step_atType_word free, Reading.enterName, if_neg keyword]
            exact (runs_typeName stream embedded here waits).leads fun _ _ passed => .pure passed
        | false =>
            have still : ts[((c.look 0).look 1).position]? = some t := here
            have next : (r.move (.atField struct newlines)).step t.kind =
                .ok (r.move (.afterFieldName struct blankBefore s)) := by
              rw [kind]
              exact Reading.step_atField_word free
            have passed := looked.look.move stream still more next
            apply Runs.pass still more
            apply Runs.peek here'
            by_cases comma : t'.kind = .punct .comma
            · rw [if_pos comma]
              apply Runs.throw
              apply passed.stands.look.refused here'
              rw [comma]
              rfl
            · rw [if_neg comma]
              have passed := passed.look.congr here' (step_named ends comma)
              exact (runs_type stream enough passed).leads fun _ _ passed => .pure passed
  | punct mark =>
      cases mark with
      | star =>
          have next : (r.move (.atField struct newlines)).step t.kind =
              .ok (r.move (.atEmbeddedPointer struct blankBefore)) := by
            rw [kind]
            rfl
          apply (runs_bump stream stands.look here (by simp [kind]) next).leads
          intro _ c' passed
          obtain ⟨t', here'⟩ := passed.stands.exists_token stream
          exact (runs_typeName stream passed.stands here' rfl).leads fun _ _ passed => .pure passed
      | semicolon => exact absurd kind solid.2
      | rightBrace => exact absurd kind inner
      | _ =>
          apply runs_unexpected stands.look here
          rw [kind]
          rfl
  | newline => exact absurd kind solid.1
  | _ =>
      apply runs_unexpected stands.look here
      rw [kind]
      rfl

theorem runs_tag {name : Option String} {type : TypeExpr} {blankBefore : Bool}
    (stream : Stream ts n)
    (passed : Passed ts n p expected
      (r.move (.afterFieldType struct ⟨name, type, none, blankBefore⟩)) c) :
    Runs (tag ts) c (Leads ts n p expected fun tag =>
      r.move (.afterField (struct.push ⟨name, type, tag, blankBefore⟩))) := by
  obtain ⟨t, here⟩ := passed.stands.exists_token stream
  apply Runs.peek here
  cases kind : t.kind with
  | str s =>
      have next : (r.move (.afterFieldType struct ⟨name, type, none, blankBefore⟩)).step t.kind =
          .ok (r.move (.afterField (struct.push ⟨name, type, some s, blankBefore⟩))) := by
        rw [kind]
        rfl
      exact (runs_bump stream passed.stands.look here (by simp [kind]) next).leads
        fun _ _ passed => .pure passed
  | _ =>
      apply Runs.pure
      apply passed.look.congr here
      rw [kind]
      rfl

theorem runs_field (stream : Stream ts n) (enough : n < p + limit)
    (stands : Stands ts n p expected (r.move (.atField struct newlines)) c)
    (here : ts[c.position]? = some t)
    (solid : t.kind ≠ .newline ∧ t.kind ≠ .punct .semicolon) (inner : t.kind ≠ .punct .rightBrace) :
    Runs (field ts limit (decide (1 < newlines) && !struct.fields.isEmpty)) c
      (Leads ts n p expected fun field => r.move (.afterField (struct.push field))) := by
  apply (runs_fieldType stream enough stands here solid inner).leads
  intro typed _ passed
  apply (runs_tag stream passed).leads
  exact fun _ _ passed => .pure passed

/-! ## Structs -/

theorem runs_expectTerminator {closing : Option Punct} (stream : Stream ts n)
    (passed : Passed ts n p expected r c)
    (step : ∀ k, r.step k =
      if terminates closing k then q.step k else Reading.refuse .terminator k) :
    Runs (expectTerminator ts closing) c (Leads ts n p expected fun _ => q) := by
  obtain ⟨t, here⟩ := passed.stands.exists_token stream
  have step := step t.kind
  apply Runs.peek here
  cases ends : terminates closing t.kind with
  | true =>
      rw [if_pos ends] at step
      exact .pure (passed.look.congr here step)
  | false =>
      simp only [ends] at step
      exact runs_unexpected passed.stands.look here step

theorem runs_fieldEnd (stream : Stream ts n)
    (passed : Passed ts n p expected (r.move (.afterField struct)) c) :
    Runs (expectTerminator ts (some .rightBrace)) c
      (Leads ts n p expected fun _ => r.move (.atField struct 0)) := by
  apply runs_expectTerminator stream passed
  intro k
  cases k with
  | punct mark => cases mark <;> rfl
  | _ => rfl

theorem runs_fields {name : String} {done : List FieldDecl} {multiline : Bool}
    (stream : Stream ts n) (enough : n < p + limit)
    (passed : Passed ts n p expected (r.move (.atField ⟨name, done, multiline⟩ 0)) c) :
    Runs (fields ts limit done multiline) c
      (Leads ts n p expected fun body => r.declare ⟨name, body⟩) := by
  induction limit generalizing p done multiline c with
  | zero =>
      have beyond := passed.beyond
      have inside := passed.fresh.inside
      omega
  | succ limit ih =>
      have beyond := passed.beyond
      let f k := r.move (.atField ⟨name, done, multiline || decide (0 < k)⟩ k)
      have newline (k) : (f k).step .newline = .ok (f (k + 1)) := by
        simp [f, Reading.step, Reading.move, Reading.enterField]
      have first : f 0 = r.move (.atField ⟨name, done, multiline⟩ 0) := by simp [f]
      have stands : Stands ts n c.position expected (f 0) (c.enter .struct) :=
        ⟨passed.fresh.enter .struct, Nat.le_refl _, by rw [first]; exact passed.agrees⟩
      have runs : Runs (fields ts (limit + 1) done multiline) c
          (Leads ts n c.position expected fun body => r.declare ⟨name, body⟩) := by
        rw [fields]
        apply Runs.enter
        apply (runs_skipSeparators stream (by omega) newline (fun _ => rfl) 0 _ stands).skips
        intro newlines c' stands solid
        obtain ⟨t, here⟩ := stands.exists_token stream
        apply Runs.peek here
        by_cases brace : t.kind = .punct .rightBrace
        · rw [if_pos brace]
          have next : (f newlines).step t.kind =
              .ok (r.declare ⟨name, .struct done (multiline || decide (0 < newlines))⟩) := by
            rw [brace]
            rfl
          exact (runs_bump stream stands.look here (by simp [brace]) next).leads
            fun _ _ passed => .pure passed
        · rw [if_neg brace]
          apply (runs_field stream (by omega) stands.look here (solid t here) brace).leads
          intro field _ passed
          apply (runs_fieldEnd stream passed).leads
          exact fun _ _ passed => ih (by omega) passed
      exact runs.mono fun _ _ leads => leads.mono (Nat.le_of_lt beyond)

/-! ## Declarations -/

theorem runs_struct {name : String} (stream : Stream ts n) (enough : n < p + limit)
    (stands : Stands ts n p expected (r.move (.atBody name)) c) (here : ts[c.position]? = some t)
    (opens : t.kind = .word "struct") :
    Runs (Descent.struct ts limit) c
      (Leads ts n p expected fun body => r.declare ⟨name, body⟩) := by
  have next : (r.move (.atBody name)).step t.kind = .ok (r.move (.atStruct name)) := by
    rw [opens]
    rfl
  apply (runs_bump stream stands here (by simp [opens]) next).leads
  intro _ _ passed
  apply (runs_expectPunct stream passed.stands fun _ _ => rfl).leads
  exact fun _ _ passed => runs_fields stream enough passed

theorem runs_body {name : String} (stream : Stream ts n) (enough : n < p + limit)
    (passed : Passed ts n p expected (r.move (.atBody name)) c) :
    Runs (body ts limit) c (Leads ts n p expected fun body => r.declare ⟨name, body⟩) := by
  obtain ⟨t, here⟩ := passed.stands.exists_token stream
  have still : ts[(c.enter .type).position]? = some t := here
  have stands : Stands ts n p expected (r.move (.atBody name)) (c.enter .type) :=
    ⟨passed.fresh.enter .type, Nat.le_of_lt passed.beyond, passed.agrees⟩
  apply Runs.enter
  apply Runs.peek still
  by_cases opens : t.kind = .word "struct"
  · rw [if_pos opens]
    exact runs_struct stream enough stands.look still opens
  · rw [if_neg opens]
    have same : (r.move (.atBody name)).step t.kind =
        (r.move (.atType ⟨[], .body name⟩)).step t.kind := by
      simp only [Reading.step, Reading.move, if_neg opens]
      rfl
    have calls : ReadsTypes ts n p expected r (type ts limit) :=
      fun _ _ passed => runs_type stream enough passed
    exact (runs_typeFrom stream enough calls (stands.look.congr still same) still).leads
      fun _ _ passed => .pure passed

theorem runs_decl (stream : Stream ts n) (enough : n < p + limit)
    (stands : Stands ts n p expected (r.move .atDecl) c) (here : ts[c.position]? = some t)
    (solid : t.kind ≠ .newline ∧ t.kind ≠ .punct .semicolon) (more : t.kind ≠ .eof) :
    Runs (decl ts limit) c (Leads ts n p expected r.declare) := by
  apply Runs.peek here
  by_cases opens : t.kind = .word "type"
  · rw [if_pos opens]
    have next : (r.move .atDecl).step t.kind = .ok (r.move .atDeclName) := by
      rw [opens]
      rfl
    apply (runs_bump stream stands.look here more next).leads
    intro _ c' passed
    obtain ⟨t', here'⟩ := passed.stands.exists_token stream
    apply (runs_expectName stream passed.stands here' rfl).leads
    intro name _ passed
    exact (runs_body stream enough passed).leads fun _ _ passed => .pure passed
  · rw [if_neg opens]
    apply runs_unexpected stands.look here
    cases kind : t.kind with
    | word s =>
        have other : s ≠ "type" := by
          rintro rfl
          exact opens kind
        simp [Reading.step, Reading.move, other, Reading.refuse]
    | punct mark =>
        cases mark with
        | semicolon => exact absurd kind solid.2
        | _ => rfl
    | newline => exact absurd kind solid.1
    | eof => exact absurd kind more
    | _ => rfl

theorem runs_declEnd {decl : TypeDecl} (stream : Stream ts n)
    (passed : Passed ts n p expected (r.declare decl) c) :
    Runs (expectTerminator ts none) c
      (Leads ts n p expected fun _ => (r.declare decl).move .atDecl) := by
  apply runs_expectTerminator stream passed
  intro k
  cases k with
  | punct mark => cases mark <;> rfl
  | _ => rfl

theorem runs_decls (stream : Stream ts n) (enough : n < c.position + limit) (fresh : c.Fresh n)
    (agrees : expected = resume ts (r.move .atDecl) c.position) :
    Runs (decls ts limit r.decls) c fun result c' => result = expected ∧ c'.Sound n := by
  induction limit generalizing r c with
  | zero =>
      have inside := fresh.inside
      omega
  | succ limit ih =>
      have stands : Stands ts n c.position expected (r.move .atDecl) (c.enter .file) :=
        ⟨fresh.enter .file, Nat.le_refl _, agrees⟩
      have fails (e : Error) (c' : Cursor) (sound : c'.Sound n) (error : expected = .error e) :
          .error e = expected ∧ c'.Sound n := ⟨error.symm, sound⟩
      rw [decls]
      apply Runs.enter
      apply (runs_skipSeparators (f := fun _ => r.move .atDecl) stream enough (fun _ => rfl)
        (fun _ => rfl) 0 _ stands).skips
      intro _ c' stands solid
      obtain ⟨t, here⟩ := stands.exists_token stream
      apply Runs.peek here
      by_cases ends : t.kind = .eof
      · rw [if_pos ends]
        have next : (r.move .atDecl).step t.kind = .ok (r.move .finished) := by
          rw [ends]
          rfl
        apply Runs.pure
        refine ⟨?_, stands.look.sound⟩
        rw [stands.agrees, resume_ok here next, resume_finished rfl]
        rfl
      · rw [if_neg ends]
        refine (runs_decl stream enough stands.look here (solid t here) ends).leadsTo ?_ fails
        intro decl _ passed
        refine (runs_declEnd stream passed).leadsTo ?_ fails
        intro _ _ passed
        have beyond := passed.beyond
        exact ih (r := r.declare decl) (by omega) passed.fresh passed.agrees

/-- The descent comes to an end on a stream, and gives what reading token by token gives. -/
theorem exists_file (stream : Stream ts n) (enough : n < limit) :
    ∃ c, file ts limit = some (declsOfTokens ts, c) ∧ c.Sound n := by
  have enough : n < Cursor.start.position + limit := by simpa [Cursor.start] using enough
  have start := declsOfTokens_eq_resume ts
  obtain ⟨result, c, ran, same, sound⟩ :=
    runs_decls (r := Reading.start) stream enough (Cursor.fresh_start n) start
  exact ⟨c, by rw [← same]; exact ran, sound⟩

end Descent

/-! ## The end -/

theorem stream_of_split {front back : List Token} {last : Token} (ends : last.kind = .eof)
    (endless : ∀ t ∈ front, t.kind ≠ .eof) : Stream (front ++ last :: back) front.length where
  ends := ⟨last, by simp, ends⟩
  solid := by
    intro i inside t here
    rw [List.getElem?_append_left inside] at here
    exact endless t (List.mem_of_getElem? here)

theorem Scanned.text_ne_empty {ts : List Token} {text : String} (scanned : Scanned ts text) :
    ∀ t ∈ ts, t.kind.text ≠ "" := by
  induction scanned with
  | start => exact List.forall_mem_nil _
  | blank _ _ ih => exact ih
  | token _ some ih => exact List.forall_mem_append.mpr ⟨ih, List.forall_mem_singleton.mpr some⟩

/-- The only end is the last token. -/
theorem tokens_end {text : String} {ts : List Token} (read : tokens text = .ok ts) :
    ∃ front place, ts = front ++ [⟨.eof, place⟩] ∧ ∀ t ∈ front, t.kind ≠ .eof := by
  obtain ⟨front, same, scanned⟩ := scanned_of_tokens read
  refine ⟨front, _, same, fun t member ends => scanned.text_ne_empty t member ?_⟩
  rw [ends, Kind.text]

/-- The tokens of a text hold one end, as the last of them. However a list with an end is made up,
the descent comes to a result or an error, the one that reading token by token gives, whatever
limit above the number of tokens before the end it is given. Its position never goes past the end,
it looks at no token behind the end, and whenever it begins another turn of a loop or another call
for a type, it has passed a token since it began the last one. -/
theorem descent_ends :
    (∀ text ts, tokens text = .ok ts →
      ∃ front place, ts = front ++ [⟨.eof, place⟩] ∧ ∀ t ∈ front, t.kind ≠ .eof) ∧
      ∀ front last back, last.kind = .eof → (∀ t ∈ front, t.kind ≠ .eof) →
        ∀ limit, front.length < limit →
          ∃ c, Descent.file (front ++ last :: back) limit =
              some (declsOfTokens (front ++ last :: back), c) ∧
            c.position ≤ front.length ∧ (∀ e ∈ c.trace, e.index ≤ front.length) ∧
            ∀ routine, (c.entries routine).Pairwise (· < ·) := by
  refine ⟨fun text ts read => tokens_end read, ?_⟩
  intro front last back ends endless limit enough
  have stream : Stream (front ++ last :: back) front.length := stream_of_split ends endless
  obtain ⟨c, ran, sound⟩ := Descent.exists_file stream enough
  exact ⟨c, ran, sound.inside, sound.reached, sound.ascending⟩

theorem descent_ends_openStruct :
    tokens "type T struct \x7bA" = .ok openStruct ∧
      (∃ front place, openStruct = front ++ [⟨.eof, place⟩] ∧ ∀ t ∈ front, t.kind ≠ .eof) ∧
      ∃ c, Descent.file openStruct 6 = some (.error ⟨⟨1, 17⟩, .unexpected .field .eof⟩, c) ∧
        c.position ≤ 5 ∧ (∀ e ∈ c.trace, e.index ≤ 5) ∧
        ∀ routine, (c.entries routine).Pairwise (· < ·) := by
  have read : tokens "type T struct \x7bA" = .ok openStruct := by decide +kernel
  exact ⟨read, descent_ends.1 _ _ read,
    descent_ends.2 (openStruct.take 5) ⟨.eof, ⟨1, 17⟩⟩ [] rfl (by decide) 6 (by decide)⟩

end GoSchema.Source
