import GoSchema.Schema.Type
import Mathlib.Logic.Function.Basic

/-! # Common types

Unification joins two types, and nothing lies above `any`. The common type of a list is the type
that all its elements have, if there is one. Everything that is said about arrays and merged fields
rests on this reading of the fold.
-/

namespace GoSchema.Ty

/-! ## Two types -/

@[simp]
theorem unify_self (t : Ty) : t.unify t = t :=
  if_pos rfl

theorem unify_of_ne {a b : Ty} (different : a ≠ b) : a.unify b = .any :=
  if_neg different

@[simp]
theorem any_unify (t : Ty) : Ty.any.unify t = .any := by
  by_cases same : Ty.any = t
  · rw [← same, unify_self]
  · exact unify_of_ne same

theorem unify_comm (a b : Ty) : a.unify b = b.unify a := by
  by_cases same : a = b
  · rw [same]
  · rw [unify_of_ne same, unify_of_ne (Ne.symm same)]

@[simp]
theorem unify_any (t : Ty) : t.unify .any = .any := by
  rw [unify_comm, any_unify]

theorem unify_assoc (a b c : Ty) : (a.unify b).unify c = a.unify (b.unify c) := by
  by_cases first : a = b
  · by_cases second : b = c
    · rw [first, second, unify_self, unify_self]
    · rw [first, unify_self, unify_of_ne second, unify_any]
  · rw [unify_of_ne first, any_unify]
    by_cases second : b = c
    · rw [← second, unify_self, unify_of_ne first]
    · rw [unify_of_ne second, unify_any]

instance : Std.Associative unify := ⟨unify_assoc⟩

/-- Unification keeps a type or weakens it to `any`. -/
theorem unify_eq_or (a b : Ty) : a.unify b = a ∨ a.unify b = .any :=
  ite_eq_or_eq (a = b) a .any

/-! ## Lists of types -/

theorem foldl_unify_any (ts : List Ty) : ts.foldl unify .any = .any := by
  induction ts with
  | nil => rfl
  | cons t ts ih => rw [List.foldl_cons, any_unify, ih]

/-- A fold that has met another type stays at `any`. -/
theorem foldl_unify (t : Ty) (ts : List Ty) :
    ts.foldl unify t = if ∀ u ∈ ts, u = t then t else .any := by
  induction ts with
  | nil => simp
  | cons u ts ih =>
      by_cases same : u = t
      · simp [same, ih]
      · have degrades : t.unify u = .any := unify_of_ne (Ne.symm same)
        simp [same, degrades, foldl_unify_any]

/-- The type that every element has, if there is one, and otherwise `any`. -/
def common (ts : List Ty) : Ty :=
  match ts with
  | [] => .any
  | t :: rest => if ∀ u ∈ rest, u = t then t else .any

theorem unifyAll_eq_common (ts : List Ty) : unifyAll ts = common ts := by
  cases ts with
  | nil => rfl
  | cons t rest => exact foldl_unify t rest

/-- The parts of a list may be unified on their own first. -/
theorem unifyAll_append {ts us : List Ty} (nonempty : ts ≠ []) (nonempty' : us ≠ []) :
    unifyAll (ts ++ us) = (unifyAll ts).unify (unifyAll us) := by
  obtain ⟨t, ts, rfl⟩ := List.exists_cons_of_ne_nil nonempty
  obtain ⟨u, us, rfl⟩ := List.exists_cons_of_ne_nil nonempty'
  calc unifyAll (t :: ts ++ u :: us)
      = us.foldl unify ((ts.foldl unify t).unify u) := by
        rw [List.cons_append, unifyAll, List.foldl_append, List.foldl_cons]
    _ = (ts.foldl unify t).unify (us.foldl unify u) := List.foldl_assoc

theorem unifyAll_concat {ts : List Ty} (nonempty : ts ≠ []) (t : Ty) :
    unifyAll (ts ++ [t]) = (unifyAll ts).unify t :=
  unifyAll_append nonempty (List.cons_ne_nil t [])

/-- Any element decides: the common type is its type if all others have it, and otherwise `any`. -/
theorem common_of_mem {ts : List Ty} {t : Ty} (member : t ∈ ts) :
    common ts = if ∀ u ∈ ts, u = t then t else .any := by
  cases ts with
  | nil => simp at member
  | cons first rest =>
      rcases List.mem_cons.mp member with rfl | later
      · simp [common]
      · by_cases same : first = t
        · simp [common, same]
        · have apart : ¬∀ u ∈ rest, u = first := fun all => same (all t later).symm
          rw [common, if_neg apart, if_neg fun all => same (all first List.mem_cons_self)]

/-- The common type depends neither on the order of the elements nor on how often each occurs. -/
theorem unifyAll_congr {ts us : List Ty} (same : ∀ t, t ∈ ts ↔ t ∈ us) :
    unifyAll ts = unifyAll us := by
  rw [unifyAll_eq_common, unifyAll_eq_common]
  cases ts with
  | nil =>
      have none : us = [] := List.eq_nil_iff_forall_not_mem.mpr fun t => by simp [← same t]
      rw [none]
  | cons t rest =>
      have here : t ∈ t :: rest := List.mem_cons_self
      simp only [common_of_mem here, common_of_mem ((same t).mp here), same]

/-- No common type depends on the order of the elements. -/
theorem unifyAll_perm {ts us : List Ty} (perm : ts.Perm us) : unifyAll ts = unifyAll us :=
  unifyAll_congr fun _ => perm.mem_iff

/-- Further elements keep the common type or weaken it to `any`. -/
theorem unifyAll_append_eq_or {ts : List Ty} (nonempty : ts ≠ []) (us : List Ty) :
    unifyAll (ts ++ us) = unifyAll ts ∨ unifyAll (ts ++ us) = .any := by
  cases us with
  | nil => exact .inl (congrArg unifyAll (List.append_nil ts))
  | cons u rest =>
      rw [unifyAll_append nonempty (List.cons_ne_nil u rest)]
      exact unify_eq_or _ _

/-- Common types follow a change of types that keeps different types apart. -/
theorem common_map {f : Ty → Ty} (injective : Function.Injective f) (any : f .any = .any)
    (ts : List Ty) : common (ts.map f) = f (common ts) := by
  cases ts with
  | nil => exact any.symm
  | cons t rest =>
      simp only [List.map_cons, common, List.forall_mem_map, injective.eq_iff]
      split
      · rfl
      · exact any.symm

/-- The common type is `any` or the type of each element. -/
theorem unifyAll_eq_any_or {ts : List Ty} {t : Ty} (member : t ∈ ts) :
    unifyAll ts = .any ∨ unifyAll ts = t := by
  rw [unifyAll_eq_common, common_of_mem member]
  exact (ite_eq_or_eq _ t .any).symm

theorem unifyAll_eq_of_forall {ts : List Ty} {t : Ty} (nonempty : ts ≠ [])
    (all : ∀ u ∈ ts, u = t) : unifyAll ts = t := by
  obtain ⟨u, member⟩ := List.exists_mem_of_ne_nil ts nonempty
  obtain rfl := all u member
  rw [unifyAll_eq_common, common_of_mem member, if_pos all]

/-- Types of which not all are the same have only `any` in common. -/
theorem unifyAll_eq_any_of_not_forall {ts : List Ty} (apart : ¬∃ t, ∀ u ∈ ts, u = t) :
    unifyAll ts = .any := by
  cases ts with
  | nil => rfl
  | cons t rest =>
      have member : t ∈ t :: rest := List.mem_cons_self
      rw [unifyAll_eq_common, common_of_mem member, if_neg fun all => apart ⟨t, all⟩]

/-- A common type other than `any` is the type of every element. -/
theorem unifyAll_eq_iff {ts : List Ty} {t : Ty} (nonempty : ts ≠ []) (known : t ≠ .any) :
    unifyAll ts = t ↔ ∀ u ∈ ts, u = t := by
  constructor
  · intro joined u member
    rcases unifyAll_eq_any_or member with any | own
    · exact absurd (joined.symm.trans any) known
    · exact own.symm.trans joined
  · exact unifyAll_eq_of_forall nonempty

/-- Unification is the join of a semilattice with `any` on top, and a common type is the join of the
elements. It is a type other than `any` exactly when all of them have that type. Neither their order
matters, nor how often each occurs, nor whether parts of the list are unified on their own. -/
theorem unifyAll_joins :
    (∀ a b : Ty, a.unify b = b.unify a) ∧
      (∀ a b c : Ty, (a.unify b).unify c = a.unify (b.unify c)) ∧
      (∀ a : Ty, a.unify a = a) ∧
      (∀ a : Ty, a.unify .any = .any ∧ Ty.any.unify a = .any) ∧
      ∀ ts : List Ty, ts ≠ [] →
        (∀ t, t ≠ .any → (unifyAll ts = t ↔ ∀ u ∈ ts, u = t)) ∧
        (∀ us : List Ty, (∀ t, t ∈ ts ↔ t ∈ us) → unifyAll ts = unifyAll us) ∧
        ∀ us : List Ty, us ≠ [] → unifyAll (ts ++ us) = (unifyAll ts).unify (unifyAll us) := by
  refine ⟨unify_comm, unify_assoc, unify_self, fun a => ⟨unify_any a, any_unify a⟩, ?_⟩
  intro ts nonempty
  exact ⟨fun t known => unifyAll_eq_iff nonempty known, fun us same => unifyAll_congr same,
    fun us nonempty' => unifyAll_append nonempty nonempty'⟩

/-- Types agree to their depth. One that has been given up is met again, and so is `any`. -/
theorem unifyAll_joins_metAgain :
    let agreeing : List Ty := [.seq (.named 2), .seq (.named 2)]
    let conflicting : List Ty := [.named 2, .seq (.named 2), .any, .named 2]
    let rearranged : List Ty := [.any, .any, .named 2, .seq (.named 2)]
    agreeing ≠ [] ∧ conflicting ≠ [] ∧ Ty.seq (.named 2) ≠ .any ∧ Ty.named 2 ≠ .any ∧
      (∀ t, t ∈ conflicting ↔ t ∈ rearranged) ∧
      unifyAll agreeing = .seq (.named 2) ∧ unifyAll conflicting ≠ .named 2 ∧
      unifyAll conflicting = unifyAll rearranged ∧
      unifyAll (agreeing ++ conflicting) = (unifyAll agreeing).unify (unifyAll conflicting) := by
  intro agreeing conflicting rearranged
  have nonempty : agreeing ≠ [] := List.cons_ne_nil _ _
  have nonempty' : conflicting ≠ [] := List.cons_ne_nil _ _
  have known : Ty.seq (.named 2) ≠ .any := by decide
  have known' : Ty.named 2 ≠ .any := by decide
  have same (t : Ty) : t ∈ conflicting ↔ t ∈ rearranged := by
    simp only [conflicting, rearranged, List.mem_cons, List.not_mem_nil]
    grind
  obtain ⟨-, -, -, -, lists⟩ := unifyAll_joins
  obtain ⟨agreed, -, parts⟩ := lists agreeing nonempty
  obtain ⟨agreed', elements, -⟩ := lists conflicting nonempty'
  exact ⟨nonempty, nonempty', known, known', same, (agreed _ known).mpr (by decide),
    mt (agreed' _ known').mp (by decide), elements _ same, parts _ nonempty'⟩

/-! ## Other numbers -/

/-- The same type with other numbers of structs. -/
def mapIds (f : TypeId → TypeId) : Ty → Ty
  | .scalar s => .scalar s
  | .any => .any
  | .named id => .named (f id)
  | .seq element => .seq (element.mapIds f)

theorem mapIds_injective {f : TypeId → TypeId} (injective : Function.Injective f) :
    Function.Injective (mapIds f) := by
  intro t u same
  induction t generalizing u with
  | scalar s =>
      cases u with
      | scalar => exact same
      | any | named | seq => cases same
  | any =>
      cases u with
      | any => rfl
      | scalar | named | seq => cases same
  | named id =>
      cases u with
      | named => rw [injective (Ty.named.inj same)]
      | scalar | any | seq => cases same
  | seq element ih =>
      cases u with
      | seq => rw [ih (Ty.seq.inj same)]
      | scalar | any | named => cases same

end GoSchema.Ty
