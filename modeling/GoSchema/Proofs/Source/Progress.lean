import GoSchema.Proofs.Source.Descent
import GoSchema.Proofs.Source.Reading

/-! # Procedures that go on

A procedure of the descent begins where a reading stands. Either it passes a token and a reading
can go on behind it, or the error it gives is the one that the reading gives.
-/

namespace GoSchema.Source

/-! ## Cursors -/

namespace Cursor

/-- All of this happened up to token `n`, and each entry into a routine was further on than the one
before it. -/
structure Sound (n : Nat) (c : Cursor) : Prop where
  inside : c.position ≤ n
  reached : ∀ e ∈ c.trace, e.index ≤ n
  ascending : ∀ routine, (c.entries routine).Pairwise (· < ·)
  entered : ∀ routine, ∀ i ∈ c.entries routine, i ≤ c.position

/-- Since the last entry into any routine a token has been passed. -/
structure Fresh (n : Nat) (c : Cursor) : Prop extends Sound n c where
  passed : ∀ routine, ∀ i ∈ c.entries routine, i < c.position

variable {n k : Nat} {c : Cursor}

@[simp] theorem entries_look (c : Cursor) (k : Nat) (routine : Routine) :
    (c.look k).entries routine = c.entries routine := by
  simp [entries, look, Event.entry?]

@[simp] theorem entries_move (c : Cursor) (routine : Routine) :
    c.move.entries routine = c.entries routine := by
  simp [entries, move, Event.entry?]

theorem entries_enter (c : Cursor) (routine other : Routine) :
    (c.enter routine).entries other =
      c.entries other ++ if routine = other then [c.position] else [] := by
  by_cases same : routine = other <;> simp [entries, enter, Event.entry?, same]

theorem fresh_start (n : Nat) : start.Fresh n := by
  constructor
  · exact ⟨Nat.zero_le n, nofun, fun _ => .nil, nofun⟩
  · nofun

theorem Sound.look (sound : c.Sound n) (inside : c.position + k ≤ n) : (c.look k).Sound n where
  inside := sound.inside
  reached := List.forall_mem_append.mpr ⟨sound.reached, List.forall_mem_singleton.mpr inside⟩
  ascending := by simpa using sound.ascending
  entered := by
    intro routine
    rw [entries_look]
    exact sound.entered routine

theorem Fresh.look (fresh : c.Fresh n) (inside : c.position + k ≤ n) : (c.look k).Fresh n where
  toSound := fresh.toSound.look inside
  passed := by
    intro routine
    rw [entries_look]
    exact fresh.passed routine

theorem Sound.move (sound : c.Sound n) (inside : c.position < n) : c.move.Fresh n where
  inside := inside
  reached := List.forall_mem_append.mpr ⟨sound.reached, List.forall_mem_singleton.mpr inside⟩
  ascending := by simpa using sound.ascending
  entered := by
    intro routine i member
    rw [entries_move] at member
    exact Nat.le_succ_of_le (sound.entered routine i member)
  passed := by
    intro routine i member
    rw [entries_move] at member
    exact Nat.lt_succ_of_le (sound.entered routine i member)

theorem Fresh.enter (fresh : c.Fresh n) (routine : Routine) : (c.enter routine).Sound n where
  inside := fresh.inside
  reached := List.forall_mem_append.mpr ⟨fresh.reached, List.forall_mem_singleton.mpr fresh.inside⟩
  ascending := by
    intro other
    rw [entries_enter]
    split
    · exact List.pairwise_append.mpr ⟨fresh.ascending other, List.pairwise_singleton _ _,
        by simpa using fresh.passed other⟩
    · simpa using fresh.ascending other
  entered := by
    intro other i member
    rw [entries_enter, List.mem_append] at member
    rcases member with before | now
    · exact fresh.entered other i before
    · split at now
      · exact Nat.le_of_eq (List.mem_singleton.mp now)
      · cases now

end Cursor

/-! ## Runs -/

namespace Descent

variable {α β : Type} {m : Descent α} {f : α → Descent β} {c : Cursor} {ts : List Token} {t : Token}
  {k : Nat} {post : Except Error α → Cursor → Prop} {post' : Except Error β → Cursor → Prop}

/-- The procedure `m` comes to an end when it starts at `c`, and what it gives is as told. -/
def Runs (m : Descent α) (c : Cursor) (post : Except Error α → Cursor → Prop) : Prop :=
  ∃ result c', m.run.run c = some (result, c') ∧ post result c'

/-- A condition on what comes first, so that `post` holds after `f`. -/
def before (f : α → Descent β) (post : Except Error β → Cursor → Prop) :
    Except Error α → Cursor → Prop
  | .ok a, c => Runs (f a) c post
  | .error e, c => post (.error e) c

namespace Runs

theorem pure {a : α} (holds : post (.ok a) c) : Runs (pure a) c post :=
  ⟨_, _, rfl, holds⟩

theorem throw {e : Error} (holds : post (.error e) c) : Runs (throw e) c post :=
  ⟨_, _, rfl, holds⟩

theorem bind (first : Runs m c (before f post')) : Runs (m >>= f) c post' := by
  obtain ⟨result, c', ran, holds⟩ := first
  cases result with
  | ok a =>
      obtain ⟨result, c'', ran', holds⟩ := holds
      refine ⟨result, c'', ?_, holds⟩
      rw [ExceptT.run_bind, StateT.run_bind, ran]
      exact ran'
  | error e =>
      refine ⟨.error e, c', ?_, holds⟩
      rw [ExceptT.run_bind, StateT.run_bind, ran]
      rfl

theorem mono {weaker : Except Error α → Cursor → Prop} (runs : Runs m c post)
    (weak : ∀ result c', post result c' → weaker result c') : Runs m c weaker := by
  obtain ⟨result, c', ran, holds⟩ := runs
  exact ⟨result, c', ran, weak result c' holds⟩

theorem enter {routine : Routine} {f : Unit → Descent β}
    (rest : Runs (f ()) (c.enter routine) post') : Runs (Descent.enter routine >>= f) c post' :=
  bind ⟨.ok (), c.enter routine, rfl, rest⟩

theorem peek {f : Token → Descent β} (here : ts[c.position + k]? = some t)
    (rest : Runs (f t) (c.look k) post') : Runs (peekAt ts k >>= f) c post' := by
  have inside : c.position + k < ts.length := (List.getElem?_eq_some_iff.mp here).1
  have place : min (c.position + k) (ts.length - 1) = c.position + k := by omega
  have ran : (peekAt ts k).run.run c =
      ((ts[min (c.position + k) (ts.length - 1)]?).bind fun t => some (t, c.look k)).bind
        fun r => some (.ok r.1, r.2) := rfl
  rw [place, here] at ran
  exact bind ⟨.ok t, c.look k, ran, rest⟩

theorem bump {post : Except Error Unit → Cursor → Prop} (here : ts[c.position]? = some t)
    (solid : t.kind ≠ .eof) (holds : post (.ok ()) (c.look 0).move) :
    Runs (Descent.bump ts) c post := by
  apply peek here
  rw [if_neg solid]
  exact ⟨_, _, rfl, holds⟩

theorem pass {f : Unit → Descent β} (here : ts[c.position]? = some t) (solid : t.kind ≠ .eof)
    (rest : Runs (f ()) (c.look 0).move post') : Runs (Descent.bump ts >>= f) c post' :=
  bind (bump here solid rest)

end Runs

end Descent

/-! ## Streams -/

/-- Token `n` is the first end. -/
structure Stream (ts : List Token) (n : Nat) : Prop where
  ends : ∃ t, ts[n]? = some t ∧ t.kind = .eof
  solid : ∀ i < n, ∀ t, ts[i]? = some t → t.kind ≠ .eof

namespace Stream

variable {ts : List Token} {n i : Nat} {t : Token}

theorem exists_token (stream : Stream ts n) (inside : i ≤ n) : ∃ t, ts[i]? = some t := by
  obtain ⟨t, here, -⟩ := stream.ends
  have short : n < ts.length := (List.getElem?_eq_some_iff.mp here).1
  exact ⟨ts[i], List.getElem?_eq_getElem _⟩

theorem lt_of_solid (stream : Stream ts n) (inside : i ≤ n) (here : ts[i]? = some t)
    (solid : t.kind ≠ .eof) : i < n := by
  obtain ⟨last, found, ends⟩ := stream.ends
  apply Nat.lt_of_le_of_ne inside
  rintro rfl
  rw [found] at here
  cases here
  exact solid ends

end Stream

/-- What reading on from token `i` gives. -/
def resume (ts : List Token) (r : Reading) (i : Nat) : Except Error (List TypeDecl) :=
  match r.run i ((ts.map (·.kind)).drop i) with
  | .ok decls => .ok decls
  | .error (j, cause) => .error ⟨((ts[j]?).map (·.position)).getD .start, cause⟩

section

variable {ts : List Token} {r q : Reading} {i : Nat} {t : Token} {cause : Cause}

theorem declsOfTokens_eq_resume (ts : List Token) :
    declsOfTokens ts = resume ts Reading.start 0 := rfl

theorem drop_kinds (here : ts[i]? = some t) :
    (ts.map (·.kind)).drop i = t.kind :: (ts.map (·.kind)).drop (i + 1) := by
  obtain ⟨inside, found⟩ := List.getElem?_eq_some_iff.mp here
  rw [List.drop_eq_getElem_cons (by simpa using inside), List.getElem_map, found]

theorem resume_ok (here : ts[i]? = some t) (next : r.step t.kind = .ok q) :
    resume ts r i = resume ts q (i + 1) := by
  unfold resume
  rw [drop_kinds here, Reading.run, next]
  by_cases finished : q.phase = .finished
  · simp [finished, Reading.run_finished finished]
  · simp [finished]

theorem resume_error (here : ts[i]? = some t) (refused : r.step t.kind = .error cause) :
    resume ts r i = .error ⟨t.position, cause⟩ := by
  unfold resume
  rw [drop_kinds here, Reading.run, refused]
  simp [here]

theorem resume_congr (here : ts[i]? = some t) (same : r.step t.kind = q.step t.kind) :
    resume ts r i = resume ts q i := by
  unfold resume
  rw [drop_kinds here, Reading.run, Reading.run, same]

theorem resume_finished (finished : r.phase = .finished) : resume ts r i = .ok r.decls := by
  rw [resume, Reading.run_finished finished]

end

namespace Descent

section

variable (ts : List Token) (n p : Nat) (expected : Except Error (List TypeDecl))

/-- The cursor is at `p` or behind it, and reading on from there gives what is expected. -/
structure Stands (r : Reading) (c : Cursor) : Prop where
  sound : c.Sound n
  beyond : p ≤ c.position
  agrees : expected = resume ts r c.position

/-- The cursor has passed `p`, and reading on from there gives what is expected. -/
structure Passed (r : Reading) (c : Cursor) : Prop where
  fresh : c.Fresh n
  beyond : p < c.position
  agrees : expected = resume ts r c.position

/-- A procedure has read something, or the error it gives is the expected one. -/
def Leads {α : Type} (next : α → Reading) : Except Error α → Cursor → Prop
  | .ok a, c => Passed ts n p expected (next a) c
  | .error e, c => c.Sound n ∧ expected = .error e

end

variable {ts : List Token} {n p : Nat} {expected : Except Error (List TypeDecl)} {r q : Reading}
  {c : Cursor} {t : Token} {cause : Cause}

namespace Stands

theorem exists_token (stream : Stream ts n) (stands : Stands ts n p expected r c) :
    ∃ t, ts[c.position]? = some t :=
  stream.exists_token stands.sound.inside

theorem lookAhead {k : Nat} (stands : Stands ts n p expected r c) (inside : c.position + k ≤ n) :
    Stands ts n p expected r (c.look k) :=
  ⟨stands.sound.look inside, stands.beyond, stands.agrees⟩

theorem look (stands : Stands ts n p expected r c) : Stands ts n p expected r (c.look 0) :=
  stands.lookAhead stands.sound.inside

theorem move (stream : Stream ts n) (stands : Stands ts n p expected r c)
    (here : ts[c.position]? = some t) (solid : t.kind ≠ .eof) (next : r.step t.kind = .ok q) :
    Passed ts n p expected q c.move where
  fresh := stands.sound.move (stream.lt_of_solid stands.sound.inside here solid)
  beyond := Nat.lt_succ_of_le stands.beyond
  agrees := stands.agrees.trans (resume_ok here next)

theorem congr (stands : Stands ts n p expected r c) (here : ts[c.position]? = some t)
    (same : r.step t.kind = q.step t.kind) : Stands ts n p expected q c :=
  ⟨stands.sound, stands.beyond, stands.agrees.trans (resume_congr here same)⟩

theorem refused {α : Type} {next : α → Reading} (stands : Stands ts n p expected r c)
    (here : ts[c.position]? = some t) (refused : r.step t.kind = .error cause) :
    Leads ts n p expected next (.error ⟨t.position, cause⟩) c :=
  ⟨stands.sound, stands.agrees.trans (resume_error here refused)⟩

end Stands

theorem Passed.stands (passed : Passed ts n p expected r c) : Stands ts n p expected r c :=
  ⟨passed.fresh.toSound, Nat.le_of_lt passed.beyond, passed.agrees⟩

theorem Passed.look (passed : Passed ts n p expected r c) : Passed ts n p expected r (c.look 0) :=
  ⟨passed.fresh.look passed.fresh.inside, passed.beyond, passed.agrees⟩

theorem Passed.congr (passed : Passed ts n p expected r c) (here : ts[c.position]? = some t)
    (same : r.step t.kind = q.step t.kind) : Passed ts n p expected q c :=
  ⟨passed.fresh, passed.beyond, passed.agrees.trans (resume_congr here same)⟩

theorem Leads.mono {α : Type} {next : α → Reading} {p' : Nat} {result : Except Error α}
    (leads : Leads ts n p expected next result c) (le : p' ≤ p) :
    Leads ts n p' expected next result c := by
  cases result with
  | ok a => exact ⟨leads.fresh, Nat.lt_of_le_of_lt le leads.beyond, leads.agrees⟩
  | error e => exact leads

section

variable {α β : Type} {m : Descent α} {f : α → Descent β} {next : α → Reading}

theorem Runs.leadsTo {post : Except Error β → Cursor → Prop}
    (first : Runs m c (Leads ts n p expected next))
    (rest : ∀ a c', Passed ts n p expected (next a) c' → Runs (f a) c' post)
    (fails : ∀ e c', c'.Sound n → expected = .error e → post (.error e) c') :
    Runs (m >>= f) c post := by
  apply Runs.bind
  apply first.mono
  intro result c' holds
  cases result with
  | ok a => exact rest a c' holds
  | error e => exact fails e c' holds.1 holds.2

theorem Runs.leads {next' : β → Reading} (first : Runs m c (Leads ts n p expected next))
    (rest : ∀ a c', Passed ts n p expected (next a) c' →
      Runs (f a) c' (Leads ts n p expected next')) :
    Runs (m >>= f) c (Leads ts n p expected next') :=
  first.leadsTo rest fun _ _ sound error => ⟨sound, error⟩

end

/-! ## Single tokens -/

theorem runs_bump (stream : Stream ts n) (stands : Stands ts n p expected r c)
    (here : ts[c.position]? = some t) (solid : t.kind ≠ .eof) (next : r.step t.kind = .ok q) :
    Runs (bump ts) c (Leads ts n p expected fun _ => q) :=
  .bump here solid (stands.look.move stream here solid next)

theorem runs_unexpected {α : Type} {next : α → Reading} {wanted : Expected}
    (stands : Stands ts n p expected r c) (here : ts[c.position]? = some t)
    (refused : r.step t.kind = .error (.unexpected wanted t.kind)) :
    Runs (unexpected wanted t) c (Leads ts n p expected next) :=
  .throw (stands.refused here refused)

theorem runs_expectPunct {mark : Punct} (stream : Stream ts n)
    (stands : Stands ts n p expected r c)
    (waits : ∀ t, ts[c.position]? = some t → r.step t.kind = Reading.enterPunct mark t.kind q) :
    Runs (expectPunct ts mark) c (Leads ts n p expected fun _ => q) := by
  obtain ⟨t, here⟩ := stands.exists_token stream
  apply Runs.peek here
  have step := waits t here
  by_cases same : t.kind = .punct mark
  · rw [Reading.enterPunct, if_pos same] at step
    rw [if_pos same]
    exact runs_bump stream stands.look here (by simp [same]) step
  · rw [Reading.enterPunct, if_neg same] at step
    rw [if_neg same]
    exact runs_unexpected stands.look here step

theorem runs_expectName {f : String → Reading} (stream : Stream ts n)
    (stands : Stands ts n p expected r c) (here : ts[c.position]? = some t)
    (waits : r.step t.kind = Reading.enterName t.kind f) :
    Runs (expectName ts) c (Leads ts n p expected f) := by
  apply Runs.peek here
  cases kind : t.kind with
  | word s =>
      by_cases keyword : isKeyword s = true
      · simp only [keyword, reduceIte]
        apply runs_unexpected stands.look here
        rw [waits, kind, Reading.enterName, if_pos keyword]
        rfl
      · simp only [keyword]
        have next : r.step t.kind = .ok (f s) := by
          rw [waits, kind, Reading.enterName, if_neg keyword]
        exact (runs_bump stream stands.look here (by simp [kind]) next).leads
          fun _ _ passed => .pure passed
  | _ =>
      apply runs_unexpected stands.look here
      rw [waits, kind]
      rfl

/-- What is left behind separators, some of which may be newlines. -/
def Skips (ts : List Token) (n p : Nat) (expected : Except Error (List TypeDecl))
    (f : Nat → Reading) : Except Error Nat → Cursor → Prop
  | .ok newlines, c => Stands ts n p expected (f newlines) c ∧
      ∀ t, ts[c.position]? = some t → t.kind ≠ .newline ∧ t.kind ≠ .punct .semicolon
  | .error _, _ => False

theorem runs_skipSeparators {f : Nat → Reading} {limit : Nat} (stream : Stream ts n)
    (enough : n < p + limit) (newline : ∀ k, (f k).step .newline = .ok (f (k + 1)))
    (semicolon : ∀ k, (f k).step (.punct .semicolon) = .ok (f k)) (newlines : Nat) (c : Cursor)
    (stands : Stands ts n p expected (f newlines) c) :
    Runs (skipSeparators ts limit newlines) c (Skips ts n p expected f) := by
  have more : n < c.position + limit := by
    have beyond := stands.beyond
    omega
  clear enough
  induction limit generalizing newlines c with
  | zero =>
      have inside := stands.sound.inside
      omega
  | succ limit ih =>
      obtain ⟨t, here⟩ := stands.exists_token stream
      have still : ts[(c.look 0).position]? = some t := here
      have less : n < c.position + 1 + limit := by omega
      rw [skipSeparators]
      apply Runs.peek here
      by_cases newline' : t.kind = .newline
      · have solid : t.kind ≠ .eof := by simp [newline']
        simp only [newline']
        apply Runs.pass still solid
        have passed := stands.look.look.move stream here solid (by rw [newline', newline])
        exact ih _ _ passed.stands less
      · by_cases semicolon' : t.kind = .punct .semicolon
        · have solid : t.kind ≠ .eof := by simp [semicolon']
          simp only [semicolon']
          apply Runs.pass still solid
          have passed := stands.look.look.move stream here solid (by rw [semicolon', semicolon])
          exact ih _ _ passed.stands less
        · have other : Skips ts n p expected f (.ok newlines) (c.look 0) := by
            refine ⟨stands.look, fun t' here' => ?_⟩
            cases here.symm.trans here'
            exact ⟨newline', semicolon'⟩
          split
          · contradiction
          · contradiction
          · exact .pure other

theorem Runs.skips {β : Type} {m : Descent Nat} {g : Nat → Descent β} {f : Nat → Reading}
    {post : Except Error β → Cursor → Prop} (first : Runs m c (Skips ts n p expected f))
    (rest : ∀ k c', Stands ts n p expected (f k) c' →
      (∀ t, ts[c'.position]? = some t → t.kind ≠ .newline ∧ t.kind ≠ .punct .semicolon) →
      Runs (g k) c' post) :
    Runs (m >>= g) c post := by
  apply Runs.bind
  apply first.mono
  intro result c' holds
  cases result with
  | ok k => exact rest k c' holds.1 holds.2
  | error e => exact holds.elim

end Descent
end GoSchema.Source
