import GoSchema.CommandLine.Process

/-! # What tasks do

How the end of a composed task follows from the ends of its parts, and which tasks do no more than
look at the world.
-/

namespace GoSchema.CommandLine

open Files

namespace Task

variable {ε α β : Type} {p q r : Process} {e : ε} {a : α} {b : β} {x : Task ε α}
  {f : α → Task ε β} {as : List α} {bs : List β}

@[simp]
theorem pure_eq_ok {c : α} : (pure a : Task ε α) p = .ok c q ↔ a = c ∧ p = q := by
  simp [pure, EStateM.pure]

@[simp]
theorem throw_ne_ok : (throw e : Task ε α) p ≠ .ok a q :=
  nofun

@[simp]
theorem ofExcept_eq_ok {x : Except ε α} : ofExcept x p = .ok a q ↔ x = .ok a ∧ p = q := by
  cases x <;> simp [ofExcept]

@[simp]
theorem call_eq_ok {event : Event} {f : World → World × α} :
    (call event f : Task ε α) p = .ok a q ↔
      (f p.world).2 = a ∧ ⟨(f p.world).1, p.events ++ [event]⟩ = q := by
  simp [call]

theorem bind_of_ok (first : x p = .ok a r) : (x >>= f) p = f a r := by
  change EStateM.bind x f p = _
  rw [EStateM.bind, first]

theorem bind_of_error (first : x p = .error e r) : (x >>= f) p = .error e r := by
  change EStateM.bind x f p = _
  rw [EStateM.bind, first]

theorem bind_eq_ok : (x >>= f) p = .ok b q ↔ ∃ a r, x p = .ok a r ∧ f a r = .ok b q := by
  cases first : x p with
  | ok a r => simp [bind_of_ok first, and_assoc]
  | error e r => simp [bind_of_error first]

theorem mapM_cons_eq_ok :
    ((a :: as).mapM f) p = .ok bs q ↔
      ∃ b r rest, f a p = .ok b r ∧ as.mapM f r = .ok rest q ∧ b :: rest = bs := by
  simp only [List.mapM_cons, bind_eq_ok, pure_eq_ok]
  constructor
  · rintro ⟨b, r, head, rest, q', tail, rfl, rfl⟩
    exact ⟨b, r, rest, head, tail, rfl⟩
  · rintro ⟨b, r, rest, head, tail, rfl⟩
    exact ⟨b, r, head, rest, q, tail, rfl, rfl⟩

end Task

/-- The process that a task leaves behind. -/
def processOf {ε α : Type} : EStateM.Result ε Process α → Process
  | .ok _ p | .error _ p => p

/-- Nothing that can be seen from outside happens between two processes. -/
structure Process.Unseen (before after : Process) : Prop where
  root : after.world.root = before.world.root
  events : ∃ more, after.events = before.events ++ more ∧ ∀ event ∈ more, event.writes = false

namespace Process.Unseen

variable {p q r : Process}

theorem refl (p : Process) : p.Unseen p :=
  ⟨rfl, [], (List.append_nil _).symm, nofun⟩

theorem trans (first : p.Unseen q) (second : q.Unseen r) : p.Unseen r := by
  obtain ⟨root, more, events, reads⟩ := first
  obtain ⟨root', more', events', reads'⟩ := second
  refine ⟨root'.trans root, more ++ more', ?_, List.forall_mem_append.mpr ⟨reads, reads'⟩⟩
  rw [events', events, List.append_assoc]

end Process.Unseen

/-- Whatever a task finds, it leaves no trace. -/
def Task.Reads {ε α : Type} (x : Task ε α) : Prop :=
  ∀ p : Process, p.Unseen (processOf (x p))

namespace Task.Reads

variable {ε α β : Type} {x : Task ε α} {f : α → Task ε β}

protected theorem pure (a : α) : (pure a : Task ε α).Reads :=
  fun p => .refl p

protected theorem throw (e : ε) : (throw e : Task ε α).Reads :=
  fun p => .refl p

theorem ofExcept (x : Except ε α) : (Task.ofExcept x).Reads := by
  cases x with
  | ok a => exact .pure a
  | error e => exact .throw e

theorem call {event : Event} {f : World → World × α} (seen : event.writes = false)
    (kept : ∀ w, (f w).1.root = w.root) : (Task.call event f : Task ε α).Reads :=
  fun p => ⟨kept p.world, [event], rfl, List.forall_mem_singleton.mpr seen⟩

protected theorem bind (first : x.Reads) (next : ∀ a, (f a).Reads) : (x >>= f).Reads := by
  intro p
  have unseen := first p
  cases result : x p with
  | ok a q =>
      rw [Task.bind_of_ok result]
      rw [result] at unseen
      exact unseen.trans (next a q)
  | error e q =>
      rw [Task.bind_of_error result]
      rwa [result] at unseen

protected theorem mapM (each : ∀ a, (f a).Reads) (as : List α) : (as.mapM f).Reads := by
  induction as with
  | nil => exact .pure []
  | cons a as ih =>
      rw [List.mapM_cons]
      exact (each a).bind fun b => ih.bind fun rest => .pure (b :: rest)

end Task.Reads
end GoSchema.CommandLine
