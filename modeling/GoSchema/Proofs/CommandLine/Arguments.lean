import GoSchema.CommandLine.Standard
import GoSchema.Proofs.CommandLine.Invocation

/-! # Reading arguments in turn

Reading the arguments of a command line one after the other finds the jobs that the grammar of
invocations describes, and no others. One argument is one step, whatever stands behind it.
-/

namespace GoSchema.CommandLine

/-! ## One argument -/

namespace Opt

variable {opt opt' : Opt}

end Opt

/-- No value is due. -/
inductive Expecting.Free : Expecting → Prop where
  | option : Free .option
  | moreInput : Free .moreInput

namespace Outcome

variable {opts : List Opt} {given given' : List Setting} {opt : Opt} {argument value : String}
  {expecting next : Expecting} {attached : Option String}

end Outcome

/-! ## One step -/

/-- An option may be given once more. -/
def Fresh (given : List Setting) (opt : Opt) : Prop :=
  opt = .input ∨ ∀ s ∈ given, s.opt ≠ opt

/-- What naming an option does. -/
inductive Used (given : List Setting) : Opt → Option String → List Setting → Expecting → Prop where
  | noTag : Used given .noTag none (given ++ [.noTag]) .option
  | attached {opt value setting} (asks : Asks opt value setting) :
      Used given opt (some value) (given ++ [setting]) .option
  | named {opt} (valued : opt ≠ .noTag) : Used given opt none given (.value opt)

/-- What the next argument does. -/
inductive Steps (opts : List Opt) (given : List Setting) :
    Expecting → String → List Setting → Expecting → Prop where
  | stop {expecting} (free : expecting.Free) : Steps opts given expecting "--" given .nothing
  | option {expecting argument opt attached given' next} (free : expecting.Free)
      (known : opt ∈ opts) (names : Names argument opt attached) (fresh : Fresh given opt)
      (used : Used given opt attached given' next) : Steps opts given expecting argument given' next
  | value {argument opt setting} (plain : Plain argument) (asks : Asks opt argument setting) :
      Steps opts given (.value opt) argument (given ++ [setting])
        (if opt = .input then .moreInput else .option)
  | more {argument} (plain : Plain argument) :
      Steps opts given .moreInput argument (given ++ [.input argument]) .moreInput

/-- What all remaining arguments do. -/
inductive Runs (opts : List Opt) :
    List Setting → Expecting → List String → List Setting → Prop where
  | done {given expecting} (settled : ∀ opt, expecting ≠ .value opt) :
      Runs opts given expecting [] given
  | step {given expecting argument given' next arguments final}
      (first : Steps opts given expecting argument given' next)
      (rest : Runs opts given' next arguments final) :
      Runs opts given expecting (argument :: arguments) final

section

variable {opts : List Opt} {given given' : List Setting} {opt : Opt} {argument value : String}
  {expecting next : Expecting} {attached : Option String}

theorem once_concat {s : Setting} : Once (given ++ [s]) ↔ Once given ∧ Fresh given s.opt := by
  have last : (∀ t ∈ given, t.Compatible s) ↔ Fresh given s.opt := by
    constructor
    · intro compatible
      by_cases single : s.opt = .input
      · exact .inl single
      · exact .inr fun t member same => single (same.symm.trans (compatible t member same))
    · rintro (repeated | new) t member same
      · exact same.trans repeated
      · exact absurd same (new t member)
  rw [Once, List.pairwise_append, ← last]
  simp [Once]

/-- What is left to read can be a value that is due, or more values, before it is options again. -/
inductive Reads : Expecting → List String → List Setting → Prop where
  | option {arguments settings} (gives : Gives arguments settings) :
      Reads .option arguments settings
  | value {opt value setting arguments settings} (single : opt ≠ .input) (plain : Plain value)
      (asks : Asks opt value setting) (gives : Gives arguments settings) :
      Reads (.value opt) (value :: arguments) (setting :: settings)
  | input {values arguments settings} (some : values ≠ [])
      (plain : ∀ value ∈ values, Plain value) (gives : Gives arguments settings) :
      Reads (.value .input) (values ++ arguments) (values.map .input ++ settings)
  | moreInput {values arguments settings} (plain : ∀ value ∈ values, Plain value)
      (gives : Gives arguments settings) :
      Reads .moreInput (values ++ arguments) (values.map .input ++ settings)
  | nothing : Reads .nothing [] []

variable {arguments values : List String} {settings final : List Setting}

theorem Reads.of_gives (gives : Gives arguments settings) (free : expecting.Free) :
    Reads expecting arguments settings := by
  cases free with
  | option => exact .option gives
  | moreInput => exact @Reads.moreInput [] _ _ nofun gives

/-- An option that is named is part of options in turn. -/
theorem Used.gives (used : Used given opt attached given' next)
    (names : Names argument opt attached) (reads : Reads next arguments settings) :
    ∃ more, given ++ more = given' ++ settings ∧ Gives (argument :: arguments) more := by
  cases used with
  | noTag =>
      cases reads with
      | option gives =>
          have written : argument = "--no-tag" := by
            cases names with
            | long => rfl
            | short known => cases known
          rw [written]
          exact ⟨.noTag :: settings, by simp, .noTag gives⟩
  | @attached _ _ setting asks =>
      cases reads with
      | option gives => exact ⟨setting :: settings, by simp, .attached names asks gives⟩
  | named =>
      cases reads with
      | value single plain asks gives => exact ⟨_, rfl, .apart names plain asks gives⟩
      | input some plain gives => exact ⟨_, rfl, .inputs names some plain gives⟩

/-- What is read has the form of the grammar. -/
theorem Runs.reads (runs : Runs opts given expecting arguments final) :
    ∃ settings, given ++ settings = final ∧ Reads expecting arguments settings := by
  induction runs with
  | @done given expecting settled =>
      refine ⟨[], List.append_nil given, ?_⟩
      cases expecting with
      | option => exact .option .nothing
      | moreInput => exact .of_gives .nothing .moreInput
      | value opt => exact absurd rfl (settled opt)
      | nothing => exact .nothing
  | @step given _ argument _ _ _ _ first _ ih =>
      obtain ⟨settings, rfl, reads⟩ := ih
      cases first with
      | stop free =>
          cases reads with
          | nothing => exact ⟨[], rfl, .of_gives .stop free⟩
      | option free _ names _ used =>
          obtain ⟨more, same, gives⟩ := used.gives names reads
          exact ⟨more, same, .of_gives gives free⟩
      | @value _ opt setting plain asks =>
          refine ⟨setting :: settings, by simp, ?_⟩
          by_cases several : opt = .input
          · subst several
            cases asks
            cases reads with
            | @moreInput values _ _ plain' gives =>
                exact @Reads.input (argument :: values) _ _ (List.cons_ne_nil _ _)
                  (List.forall_mem_cons.mpr ⟨plain, plain'⟩) gives
          · rw [if_neg several] at reads
            cases reads with
            | option gives => exact .value several plain asks gives
      | more plain =>
          refine ⟨.input argument :: settings, by simp, ?_⟩
          cases reads with
          | @moreInput values _ _ plain' gives =>
              exact @Reads.moreInput (argument :: values) _ _
                (List.forall_mem_cons.mpr ⟨plain, plain'⟩) gives

/-- What has been read keeps to the rules, and so would the value that is due. -/
structure Valid (opts : List Opt) (given : List Setting) (expecting : Expecting) : Prop where
  once : Once given
  known : ∀ s ∈ given, s.opt ∈ opts
  due : ∀ opt, expecting = .value opt → opt ∈ opts ∧ Fresh given opt

theorem Valid.concat {s : Setting} (valid : Valid opts given expecting) (known : s.opt ∈ opts)
    (fresh : Fresh given s.opt) (settled : ∀ opt, next ≠ .value opt) :
    Valid opts (given ++ [s]) next where
  once := once_concat.mpr ⟨valid.once, fresh⟩
  known := List.forall_mem_append.mpr ⟨valid.known, List.forall_mem_singleton.mpr known⟩
  due opt same := absurd same (settled opt)

theorem Steps.valid (steps : Steps opts given expecting argument given' next)
    (several : .input ∈ opts) (valid : Valid opts given expecting) : Valid opts given' next := by
  cases steps with
  | stop => exact ⟨valid.once, valid.known, nofun⟩
  | option _ known _ fresh used =>
      cases used with
      | noTag => exact valid.concat known fresh nofun
      | attached asks => exact valid.concat (by rwa [asks.opt]) (by rwa [asks.opt]) nofun
      | named =>
          refine ⟨valid.once, valid.known, fun opt same => ?_⟩
          cases same
          exact ⟨known, fresh⟩
  | @value _ opt _ _ asks =>
      obtain ⟨known, fresh⟩ := valid.due opt rfl
      refine valid.concat (by rwa [asks.opt]) (by rwa [asks.opt]) fun opt' => ?_
      split <;> exact nofun
  | more => exact valid.concat several (.inl rfl) nofun

theorem Runs.valid (runs : Runs opts given expecting arguments final) (several : .input ∈ opts)
    (valid : Valid opts given expecting) : Once final ∧ ∀ s ∈ final, s.opt ∈ opts := by
  induction runs with
  | done => exact ⟨valid.once, valid.known⟩
  | step first _ ih => exact ih (first.valid several valid)

/-- Several values in a row are read one by one. -/
theorem Runs.of_values (plain : ∀ value ∈ values, Plain value)
    (rest : Runs opts (given ++ values.map .input) .moreInput arguments final) :
    Runs opts given .moreInput (values ++ arguments) final := by
  induction values generalizing given with
  | nil => simpa using rest
  | cons value values ih =>
      obtain ⟨first, others⟩ := List.forall_mem_cons.mp plain
      exact .step (.more first) (ih others (by simpa using rest))

theorem Once.fresh {s : Setting} (once : Once (given ++ s :: settings)) : Fresh given s.opt := by
  rw [List.append_cons] at once
  exact (once_concat.mp (List.pairwise_append.mp once).1).2

/-- What has the form of the grammar is read. -/
theorem Gives.runs (gives : Gives arguments settings) (free : expecting.Free)
    (known : ∀ s ∈ settings, s.opt ∈ opts) (once : Once (given ++ settings)) :
    Runs opts given expecting arguments (given ++ settings) := by
  induction gives generalizing given expecting with
  | nothing =>
      rw [List.append_nil]
      refine .done fun opt => ?_
      rintro rfl
      cases free
  | stop =>
      rw [List.append_nil]
      exact .step (.stop free) (.done nofun)
  | noTag _ ih =>
      obtain ⟨here, later⟩ := List.forall_mem_cons.mp known
      have rest := ih .option later (by rwa [← List.append_cons])
      rw [← List.append_cons] at rest
      exact .step (.option free here (.long .noTag) once.fresh .noTag) rest
  | attached names asks _ ih =>
      obtain ⟨here, later⟩ := List.forall_mem_cons.mp known
      have rest := ih .option later (by rwa [← List.append_cons])
      have fresh := once.fresh
      rw [asks.opt] at here fresh
      rw [← List.append_cons] at rest
      exact .step (.option free here names fresh (.attached asks)) rest
  | @apart _ opt _ _ _ _ names plain asks _ ih =>
      obtain ⟨here, later⟩ := List.forall_mem_cons.mp known
      have behind : (if opt = .input then Expecting.moreInput else .option).Free := by
        split
        · exact .moreInput
        · exact .option
      have rest := ih behind later (by rwa [← List.append_cons])
      have fresh := once.fresh
      rw [asks.opt] at here fresh
      rw [← List.append_cons] at rest
      exact .step (.option free here names fresh (.named asks.ne_noTag))
        (.step (.value plain asks) rest)
  | @inputs _ values _ settings names some plain _ ih =>
      obtain ⟨value, values, rfl⟩ := List.exists_cons_of_ne_nil some
      obtain ⟨first, others⟩ := List.forall_mem_cons.mp plain
      obtain ⟨here, later⟩ := List.forall_mem_append.mp known
      have known' : .input ∈ opts := here (.input value) (List.mem_cons_self ..)
      have named : Used given .input none given (.value .input) := .named (by decide)
      have shifted : given ++ ((value :: values).map .input ++ settings) =
          given ++ [.input value] ++ values.map .input ++ settings := by simp
      rw [shifted] at once ⊢
      exact .step (.option free known' names (.inl rfl) named)
        (.step (.value first (.input value)) (.of_values others (ih .moreInput later once)))

end

end GoSchema.CommandLine
