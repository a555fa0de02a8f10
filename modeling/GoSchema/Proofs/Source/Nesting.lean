import GoSchema.Proofs.Source.Derivation

/-! # Braces and lines

What derives from the grammar closes its braces, and no newline of a field or a declaration stands
outside braces. So lists of them can be cut at the ends of lines.
-/

namespace GoSchema.Source

/-- The number of open braces after one more token. No brace may be closed that is not open and,
in a flat text, no newline may stand outside braces. -/
def Kind.level (flat : Bool) (depth : Nat) : Kind → Option Nat
  | .punct .leftBrace => some (depth + 1)
  | .punct .rightBrace => if depth = 0 then none else some (depth - 1)
  | .newline => if flat ∧ depth = 0 then none else some depth
  | _ => some depth

def levels (flat : Bool) (depth : Nat) : List Kind → Option Nat
  | [] => some depth
  | k :: ks => (k.level flat depth).bind fun depth => levels flat depth ks

/-- Tokens that close all their braces, and in a flat text have newlines between them only. -/
def Closed (flat : Bool) (ks : List Kind) : Prop :=
  ∀ depth, levels flat depth ks = some depth

section

variable {flat : Bool} {depth : Nat} {ks ls : List Kind}

theorem levels_append (ks ls : List Kind) : levels flat depth (ks ++ ls) =
    (levels flat depth ks).bind fun depth => levels flat depth ls := by
  induction ks generalizing depth with
  | nil => rfl
  | cons k ks ih =>
      rw [List.cons_append, levels, levels, Option.bind_assoc]
      exact congrArg _ (funext fun depth => ih)

theorem closed_nil : Closed flat [] :=
  fun _ => rfl

theorem Closed.append (one : Closed flat ks) (other : Closed flat ls) : Closed flat (ks ++ ls) := by
  intro depth
  rw [levels_append, one]
  exact other depth

theorem Closed.of_append (first : Closed flat ks) (whole : Closed flat (ks ++ ls)) :
    Closed flat ls := by
  intro depth
  have all := whole depth
  rw [levels_append, first] at all
  exact all

theorem Closed.cons {k : Kind} (neutral : ∀ depth, k.level flat depth = some depth)
    (rest : Closed flat ks) : Closed flat (k :: ks) := by
  intro depth
  rw [levels, neutral]
  exact rest depth

/-- One more brace around a text does no harm to it. -/
theorem level_succ {k : Kind} {d e : Nat} (inside : k.level false d = some e) :
    k.level flat (d + 1) = some (e + 1) := by
  cases k with
  | punct mark =>
      cases mark with
      | leftBrace =>
          cases inside
          rfl
      | rightBrace =>
          simp only [Kind.level] at inside ⊢
          split at inside
          · cases inside
          · cases inside
            rw [if_neg (Nat.succ_ne_zero d)]
            congr 1
            omega
      | _ =>
          cases inside
          rfl
  | newline =>
      simp only [Kind.level] at inside ⊢
      rw [if_neg (by simp)] at inside ⊢
      cases inside
      rfl
  | _ =>
      cases inside
      rfl

theorem levels_succ {d e : Nat} (inside : levels false d ks = some e) :
    levels flat (d + 1) ks = some (e + 1) := by
  induction ks generalizing d with
  | nil =>
      cases inside
      rfl
  | cons k ks ih =>
      obtain ⟨between, first, rest⟩ := Option.bind_eq_some_iff.mp inside
      rw [levels, level_succ first]
      exact ih rest

theorem Closed.braces (body : Closed false ks) :
    Closed flat (.punct .leftBrace :: (ks ++ [.punct .rightBrace])) := by
  intro depth
  rw [levels, Kind.level, Option.bind_some, levels_append, levels_succ (body depth)]
  rfl

theorem level_of_flat {k : Kind} {d e : Nat} (inside : k.level true d = some e) :
    k.level false d = some e := by
  cases k with
  | newline =>
      simp only [Kind.level] at inside ⊢
      split at inside
      · cases inside
      · rw [if_neg (by simp)]
        exact inside
  | punct mark => cases mark <;> exact inside
  | _ => exact inside

theorem levels_of_flat {d e : Nat} (inside : levels true d ks = some e) :
    levels false d ks = some e := by
  induction ks generalizing d with
  | nil => exact inside
  | cons k ks ih =>
      obtain ⟨between, first, rest⟩ := Option.bind_eq_some_iff.mp inside
      rw [levels, level_of_flat first]
      exact ih rest

theorem Closed.of_flat (closed : Closed true ks) : Closed false ks :=
  fun depth => levels_of_flat (closed depth)

/-- The closing brace of a text is the first one that the text does not open. -/
theorem Closed.unique {rest rest' : List Kind} (one : Closed false ks) (other : Closed false ls)
    (same : ks ++ .punct .rightBrace :: rest = ls ++ .punct .rightBrace :: rest') : ks = ls := by
  have stops {front more : List Kind} (whole : Closed false (front ++ .punct .rightBrace :: more))
      (first : Closed false front) : False := by
    have zero := whole 0
    rw [levels_append, first] at zero
    cases zero
  rcases List.append_eq_append_iff.mp same with ⟨more, rfl, tail⟩ | ⟨more, rfl, tail⟩
  · cases more with
    | nil => exact (List.append_nil ks).symm
    | cons k more =>
        cases tail
        exact (stops other one).elim
  · cases more with
    | nil => exact List.append_nil ls
    | cons k more =>
        cases tail
        exact (stops one other).elim

/-- No newline of a flat text ends something that closes its braces. -/
theorem Closed.not_cut {front rest : List Kind} (whole : Closed true (front ++ .newline :: rest)) :
    ¬Closed false front := by
  intro closed
  have zero := whole 0
  rw [levels_append] at zero
  obtain ⟨depth, first, later⟩ := Option.bind_eq_some_iff.mp zero
  rw [levels_of_flat first |>.symm.trans (closed 0) |> Option.some_inj.mp] at later
  cases later

end

/-! ## What derives from the grammar -/

theorem Separators.closed {seps : List Kind} (separators : Separators seps) :
    Closed false seps := by
  induction seps with
  | nil => exact closed_nil
  | cons k seps ih =>
      obtain ⟨here, later⟩ := List.forall_mem_cons.mp separators
      apply (ih later).cons
      intro depth
      rcases here with rfl | rfl
      · simp [Kind.level]
      · rfl

theorem DerivesTypeName.closed {flat : Bool} {ks : List Kind} {t : TypeExpr}
    (derives : DerivesTypeName ks t) : Closed flat ks := by
  cases derives <;> exact fun _ => rfl

theorem DerivesType.closed {flat : Bool} {ks : List Kind} {t : TypeExpr}
    (derives : DerivesType ks t) : Closed flat ks := by
  induction derives with
  | named name => exact name.closed
  | pointer target ih => exact ih.cons fun _ => rfl
  | slice element ih => exact (ih.cons fun _ => rfl).cons fun _ => rfl
  | map key value ihKey ihValue =>
      have closing := ihValue.cons (k := .punct .rightBracket) fun _ => rfl
      exact ((ihKey.append closing).cons fun _ => rfl).cons fun _ => rfl
  | interface separators => exact separators.closed.braces.cons fun _ => rfl

theorem closed_tagKinds {flat : Bool} (tag : Option String) : Closed flat (tagKinds tag) := by
  cases tag <;> exact fun _ => rfl

theorem DerivesField.closed {flat blankBefore : Bool} {ks : List Kind} {field : FieldDecl}
    (derives : DerivesField blankBefore ks field) : Closed flat ks := by
  cases derives with
  | embedded type tag => exact type.closed.append (closed_tagKinds tag)
  | embeddedPointer type tag =>
      exact (type.closed.append (closed_tagKinds tag)).cons fun _ => rfl
  | named free type tag => exact (type.closed.append (closed_tagKinds tag)).cons fun _ => rfl

theorem DerivesMoreFields.closed {ks : List Kind} {fields : List FieldDecl} {multiline : Bool}
    (derives : DerivesMoreFields ks fields multiline) : Closed false ks := by
  induction derives with
  | last separators => exact separators.closed
  | more separators _ first _ ih => exact separators.closed.append (first.closed.append ih)

theorem DerivesFields.closed {ks : List Kind} {fields : List FieldDecl} {multiline : Bool}
    (derives : DerivesFields ks fields multiline) : Closed false ks := by
  cases derives with
  | none separators => exact separators.closed
  | some separators first others =>
      exact separators.closed.append (first.closed.append others.closed)

theorem DerivesDecl.closed {flat : Bool} {ks : List Kind} {decl : TypeDecl}
    (derives : DerivesDecl ks decl) : Closed flat ks := by
  cases derives with
  | type free type => exact (type.closed.cons fun _ => rfl).cons fun _ => rfl
  | struct free body =>
      exact ((body.closed.braces.cons fun _ => rfl).cons fun _ => rfl).cons fun _ => rfl

/-! ## Lists with separators -/

/-- What may follow a piece: nothing, or a separator first. -/
def Apart (ks : List Kind) : Prop :=
  ks.headD .newline = .newline ∨ ks.headD .newline = .punct .semicolon

theorem apart_nil : Apart [] :=
  .inl rfl

theorem Separators.apart_append {seps : List Kind} (separators : Separators seps)
    (some : seps ≠ []) (rest : List Kind) : Apart (seps ++ rest) := by
  cases seps with
  | nil => exact absurd rfl some
  | cons k seps => exact separators k List.mem_cons_self

theorem Separators.apart {seps : List Kind} (separators : Separators seps) : Apart seps := by
  cases seps with
  | nil => exact apart_nil
  | cons k seps => exact separators k List.mem_cons_self

/-- Pieces with some property, with separators before, between and after them. -/
inductive Separated (Piece : List Kind → Prop) : List Kind → Prop where
  | done {seps} (separators : Separators seps) : Separated Piece seps
  | piece {seps ks rest} (separators : Separators seps) (here : Piece ks)
      (apart : Apart rest) (more : Separated Piece rest) : Separated Piece (seps ++ (ks ++ rest))

/-- Pieces that lists can be cut between. -/
structure Cuttable (Piece : List Kind → Prop) : Prop where
  closed : ∀ ks, Piece ks → Closed true ks
  starts : ∀ ks, Piece ks → ∃ k more, ks = k :: more ∧ k ≠ .newline ∧ k ≠ .punct .semicolon

section

variable {Piece : List Kind → Prop} {seps ks line rest : List Kind}

theorem Cuttable.not_apart (cuttable : Cuttable Piece) (here : Piece ks) : ¬Apart (ks ++ rest) := by
  obtain ⟨k, more, rfl, newline, semicolon⟩ := cuttable.starts _ here
  exact not_or.mpr ⟨newline, semicolon⟩

theorem Separated.before (separators : Separators seps) (more : Separated Piece ks) :
    Separated Piece (seps ++ ks) := by
  cases more with
  | done separators' => exact .done (List.forall_mem_append.mpr ⟨separators, separators'⟩)
  | piece separators' here apart more =>
      rw [← List.append_assoc]
      exact .piece (List.forall_mem_append.mpr ⟨separators, separators'⟩) here apart more

theorem Separated.alone (here : Piece ks) : Separated Piece ks := by
  have alone := Separated.piece (List.forall_mem_nil _) here apart_nil
    (.done (List.forall_mem_nil _))
  rwa [List.nil_append, List.append_nil] at alone

/-- Without a separator there is but one piece. -/
theorem Separated.whole (separated : Separated Piece ks) (filled : ks ≠ [])
    (solid : ∀ k ∈ ks, k ≠ .newline ∧ k ≠ .punct .semicolon) : Piece ks := by
  have none {seps : List Kind} (separators : Separators seps)
      (solid : ∀ k ∈ seps, k ≠ .newline ∧ k ≠ .punct .semicolon) : seps = [] := by
    apply List.eq_nil_iff_forall_not_mem.mpr
    intro k member
    exact not_or.mpr (solid k member) (separators k member)
  cases separated with
  | done separators => exact absurd (none separators solid) filled
  | @piece seps ks rest separators here apart more =>
      obtain ⟨before, solid⟩ := List.forall_mem_append.mp solid
      obtain ⟨-, after⟩ := List.forall_mem_append.mp solid
      obtain rfl := none separators before
      cases rest with
      | nil => rwa [List.nil_append, List.append_nil]
      | cons k rest => exact absurd apart (not_or.mpr (after k List.mem_cons_self))

theorem Separated.lines (first : Separated Piece line) (more : Separated Piece rest) :
    Separated Piece (line ++ .newline :: rest) := by
  induction first with
  | @done seps separators =>
      rw [List.append_cons]
      exact more.before (List.forall_mem_append.mpr ⟨separators, separators_newline⟩)
  | @piece seps ks left separators here apart _ ih =>
      rw [List.append_assoc, List.append_assoc]
      refine .piece separators here ?_ ih
      cases left with
      | nil => exact apart_nil
      | cons k left => exact apart

/-- A list of pieces can be cut at the end of a line that closes its braces. -/
theorem Separated.cut (cuttable : Cuttable Piece) (closed : Closed false line)
    (whole : Separated Piece (line ++ .newline :: rest)) :
    Separated Piece line ∧ Separated Piece rest := by
  generalize text : line ++ .newline :: rest = ks at whole
  induction whole generalizing line with
  | done separators =>
      subst text
      obtain ⟨first, more⟩ := List.forall_mem_append.mp separators
      exact ⟨.done first, .done fun k member => more k (List.mem_cons_of_mem _ member)⟩
  | @piece seps ks left separators here apart more ih =>
      have solid := cuttable.closed ks here
      rcases List.append_eq_append_iff.mp text with ⟨tail, rfl, after⟩ | ⟨tail, rfl, after⟩
      -- the line ends among the separators
      · obtain ⟨first, behind⟩ := List.forall_mem_append.mp separators
        cases tail with
        | nil =>
            obtain ⟨k, ks, rfl, newline, -⟩ := cuttable.starts _ here
            cases after
            exact absurd rfl newline
        | cons k tail =>
            cases after
            refine ⟨.done first, .piece ?_ here apart more⟩
            exact fun k member => behind k (List.mem_cons_of_mem _ member)
      · have closed' := separators.closed.of_append closed
        rcases List.append_eq_append_iff.mp after with ⟨last, rfl, behind⟩ | ⟨last, rfl, behind⟩
        -- the line ends after the piece
        · obtain ⟨first, others⟩ := ih (solid.of_flat.of_append closed') behind.symm
          refine ⟨.piece separators here ?_ first, others⟩
          cases last with
          | nil => exact apart_nil
          | cons k last =>
              rw [behind] at apart
              exact apart
        -- the line ends within the piece, which is only possible at its very end
        · cases last with
          | nil =>
              rw [List.append_nil] at here
              obtain ⟨-, others⟩ := ih closed_nil behind
              exact ⟨(Separated.alone here).before separators, others⟩
          | cons k last =>
              cases behind
              exact absurd closed' solid.not_cut

end

/-! ## Fields and declarations -/

def IsField (ks : List Kind) : Prop :=
  ∃ blankBefore field, DerivesField blankBefore ks field

/-- Tokens that may stand between the braces of a struct. -/
def IsFieldList (ks : List Kind) : Prop :=
  ∃ fields multiline, DerivesFields ks fields multiline

def IsDecl (ks : List Kind) : Prop :=
  ∃ decl, DerivesDecl ks decl

def IsFile (ks : List Kind) : Prop :=
  ∃ decls, DerivesFile ks decls

section

variable {ks : List Kind}

theorem IsField.exists_derives (is : IsField ks) (blankBefore : Bool) :
    ∃ field, DerivesField blankBefore ks field := by
  obtain ⟨_, _, derives⟩ := is
  cases derives with
  | embedded type tag => exact ⟨_, .embedded type tag⟩
  | embeddedPointer type tag => exact ⟨_, .embeddedPointer type tag⟩
  | named free type tag => exact ⟨_, .named free type tag⟩

theorem cuttable_isField : Cuttable IsField where
  closed := by
    rintro ks ⟨blankBefore, field, derives⟩
    exact derives.closed
  starts := by
    rintro ks ⟨blankBefore, field, derives⟩
    cases derives with
    | embedded type tag =>
        obtain ⟨name, more, rfl, -⟩ := type.exists_word
        exact ⟨_, _, rfl, by simp, by simp⟩
    | _ => exact ⟨_, _, rfl, by simp, by simp⟩

theorem cuttable_isDecl : Cuttable IsDecl where
  closed := by
    rintro ks ⟨decl, derives⟩
    exact derives.closed
  starts := by
    rintro ks ⟨decl, derives⟩
    obtain ⟨more, rfl⟩ := derives.exists_more
    exact ⟨_, _, rfl, by simp, by simp⟩

theorem DerivesMoreFields.separated {fields : List FieldDecl} {multiline : Bool}
    (derives : DerivesMoreFields ks fields multiline) :
    Separated IsField ks ∧ Apart ks := by
  induction derives with
  | last separators => exact ⟨.done separators, separators.apart⟩
  | more separators some first others ih =>
      exact ⟨.piece separators ⟨_, _, first⟩ ih.2 ih.1, separators.apart_append some _⟩

theorem Separated.derivesMoreFields (separated : Separated IsField ks) (apart : Apart ks) :
    ∃ fields multiline, DerivesMoreFields ks fields multiline := by
  induction separated with
  | done separators => exact ⟨_, _, .last separators⟩
  | @piece seps ks rest separators here apart' more ih =>
      obtain ⟨fields, multiline, others⟩ := ih apart'
      obtain ⟨field, first⟩ := here.exists_derives (decide (1 < seps.count .newline))
      refine ⟨_, _, .more separators ?_ first others⟩
      rintro rfl
      exact cuttable_isField.not_apart here apart

theorem isFieldList_iff : IsFieldList ks ↔ Separated IsField ks := by
  constructor
  · intro given
    obtain ⟨fields, multiline, derives⟩ := given
    cases derives with
    | none separators => exact .done separators
    | some separators first others =>
        exact .piece separators ⟨_, _, first⟩ others.separated.2 others.separated.1
  · intro separated
    cases separated with
    | done separators => exact ⟨_, _, .none separators⟩
    | piece separators here apart more =>
        obtain ⟨field, first⟩ := here.exists_derives false
        obtain ⟨fields, multiline, others⟩ := more.derivesMoreFields apart
        exact ⟨_, _, .some separators first others⟩

theorem DerivesMoreDecls.separated {decls : List TypeDecl} (derives : DerivesMoreDecls ks decls) :
    Separated IsDecl ks ∧ Apart ks := by
  induction derives with
  | last separators => exact ⟨.done separators, separators.apart⟩
  | more separators some first others ih =>
      exact ⟨.piece separators ⟨_, first⟩ ih.2 ih.1, separators.apart_append some _⟩

theorem Separated.derivesMoreDecls (separated : Separated IsDecl ks) (apart : Apart ks) :
    ∃ decls, DerivesMoreDecls ks decls := by
  induction separated with
  | done separators => exact ⟨_, .last separators⟩
  | piece separators here apart' more ih =>
      obtain ⟨decls, others⟩ := ih apart'
      obtain ⟨decl, first⟩ := here
      refine ⟨_, .more separators ?_ first others⟩
      rintro rfl
      exact cuttable_isDecl.not_apart ⟨decl, first⟩ apart

theorem isFile_iff : IsFile ks ↔ Separated IsDecl ks := by
  constructor
  · intro given
    obtain ⟨decls, derives⟩ := given
    cases derives with
    | none separators => exact .done separators
    | some separators first others =>
        exact .piece separators ⟨_, first⟩ others.separated.2 others.separated.1
  · intro separated
    cases separated with
    | done separators => exact ⟨_, .none separators⟩
    | piece separators here apart more =>
        obtain ⟨decl, first⟩ := here
        obtain ⟨decls, others⟩ := more.derivesMoreDecls apart
        exact ⟨_, .some separators first others⟩

/-- A struct on its own is a file when its braces hold a list of fields. -/
theorem isFile_struct {name : String} (free : isKeyword name = false) (closed : Closed false ks) :
    IsFile (.word "type" :: .word name :: .word "struct" :: .punct .leftBrace ::
      (ks ++ [.punct .rightBrace])) ↔ IsFieldList ks := by
  constructor
  · intro given
    obtain ⟨decls, derives⟩ := given
    generalize text : Kind.word "type" :: .word name :: .word "struct" :: .punct .leftBrace ::
      (ks ++ [.punct .rightBrace]) = all at derives
    cases derives with
    | none separators =>
        subst text
        rcases separators _ List.mem_cons_self with same | same <;> cases same
    | @some seps front decl rest decls separators first others =>
        cases seps with
        | cons k seps =>
            obtain ⟨rfl, -⟩ := List.cons.inj text
            rcases separators _ List.mem_cons_self with same | same <;> cases same
        | nil =>
            cases first with
            | type free' type =>
                obtain ⟨k, more, rfl, other⟩ := type.exists_head
                simp only [List.nil_append, List.cons_append, List.cons.injEq] at text
                exact absurd text.2.2.1.symm other
            | @struct name' inner fields multiline free' body =>
                simp only [List.nil_append, List.cons_append, List.append_assoc,
                  List.cons.injEq, true_and] at text
                cases Closed.unique closed body.closed text.2
                exact ⟨fields, multiline, body⟩
  · intro given
    obtain ⟨fields, multiline, derives⟩ := given
    have alone := DerivesFile.some (List.forall_mem_nil _) (.struct free derives)
      (.last (List.forall_mem_nil _))
    rw [List.nil_append, List.append_nil] at alone
    exact ⟨_, alone⟩

end

end GoSchema.Source
