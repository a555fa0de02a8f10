import GoSchema.Proofs.Source.Reading

/-! # Reading files

The fields of a struct, the declarations of a file: which tokens they can be read from.
-/

namespace GoSchema.Source

/-- Every list begins with separators, and then comes something else or nothing. -/
theorem exists_separators (ks : List Kind) :
    ∃ seps rest, ks = seps ++ rest ∧ Separators seps ∧
      (rest.headD .eof ≠ .newline ∧ rest.headD .eof ≠ .punct .semicolon) := by
  induction ks with
  | nil => exact ⟨[], [], rfl, List.forall_mem_nil _, by simp⟩
  | cons k ks ih =>
      by_cases separator : k = .newline ∨ k = .punct .semicolon
      · obtain ⟨seps, rest, rfl, separators, next⟩ := ih
        exact ⟨k :: seps, rest, rfl, List.forall_mem_cons.mpr ⟨separator, separators⟩, next⟩
      · exact ⟨[], k :: ks, rfl, List.forall_mem_nil _, not_or.mp separator⟩

/-- A struct that is still open, after some separators. -/
def OpenStruct.separate (struct : OpenStruct) (seps : List Kind) : OpenStruct :=
  { struct with multiline := seps.contains .newline || struct.multiline }

theorem OpenStruct.separate_filled (struct : OpenStruct) (seps : List Kind)
    (filled : struct.fields ≠ []) : (struct.separate seps).fields.isEmpty = false := by
  simpa [OpenStruct.separate] using filled

namespace Reading

variable {r q : Reading} {k : Kind} {ks : List Kind} {decls : List TypeDecl}
variable {struct : OpenStruct} {field : FieldDecl}

/-! ## Fields -/

/-- After the type of a field comes its tag or what follows a field. -/
theorem afterFieldType_yields (untagged : field.tag = none) :
    (r.move (.afterFieldType struct field)).Yields ks decls ↔
      ∃ tag rest, ks = tagKinds tag ++ rest ∧
        (r.move (.afterField (struct.push { field with tag }))).Yields rest decls := by
  have plain : ({ field with tag := none } : FieldDecl) = field := by
    rw [← untagged]
  constructor
  · intro read
    by_cases tagged : ∃ s rest, ks = .str s :: rest
    · obtain ⟨s, rest, rfl⟩ := tagged
      exact ⟨some s, rest, rfl, (yields_step rfl).mp read⟩
    · refine ⟨none, ks, rfl, ?_⟩
      rw [plain]
      refine (yields_congr ?_).mp read
      cases ks with
      | nil => rfl
      | cons k rest =>
          cases k with
          | str s => exact absurd ⟨s, rest, rfl⟩ tagged
          | _ => rfl
  · intro given
    obtain ⟨tag, rest, rfl, read⟩ := given
    cases tag with
    | some s => exact (yields_step rfl).mpr read
    | none =>
        rw [plain] at read
        refine (yields_congr ?_).mpr read
        cases rest with
        | nil => rfl
        | cons k rest =>
            cases k with
            | str s => exact absurd read (not_yields rfl)
            | _ => rfl

/-- One token tells whether the first name of a field is the type of an embedded field or the
name of one. -/
theorem step_afterFieldName (blankBefore : Bool) (name : String) (k : Kind) :
    let here := (r.move (.afterFieldName struct blankBefore name)).step k
    let embedded := (r.move (.afterTypeName ⟨[], .field struct blankBefore none⟩ name)).step k
    let named := (r.move (.atType ⟨[], .field struct blankBefore (some name)⟩)).step k
    (here = embedded ∧ ∃ cause, named = .error cause) ∨
      (here = named ∧ ∃ cause, embedded = .error cause) ∨
      ∃ cause cause' cause'', here = .error cause ∧ embedded = .error cause' ∧
        named = .error cause'' := by
  cases k with
  | word s => exact .inr (.inl ⟨rfl, _, rfl⟩)
  | number s => exact .inr (.inl ⟨rfl, _, rfl⟩)
  | str s => exact .inl ⟨rfl, _, rfl⟩
  | newline => exact .inl ⟨rfl, _, rfl⟩
  | eof => exact .inl ⟨rfl, _, rfl⟩
  | punct mark =>
      cases mark with
      | semicolon | rightBrace | dot => exact .inl ⟨rfl, _, rfl⟩
      | comma => exact .inr (.inr ⟨_, _, _, rfl, rfl, rfl⟩)
      | _ => exact .inr (.inl ⟨rfl, _, rfl⟩)

theorem afterFieldName_yields {blankBefore : Bool} {name : String} :
    (r.move (.afterFieldName struct blankBefore name)).Yields ks decls ↔
      (r.move (.afterTypeName ⟨[], .field struct blankBefore none⟩ name)).Yields ks decls ∨
      (r.move (.atType ⟨[], .field struct blankBefore (some name)⟩)).Yields ks decls := by
  rcases step_afterFieldName blankBefore name (ks.headD .eof) with
    ⟨same, cause, refused⟩ | ⟨same, cause, refused⟩ | ⟨_, _, _, refused, refused', refused''⟩
  · rw [or_iff_left (not_yields refused), yields_congr same]
  · rw [or_iff_right (not_yields refused), yields_congr same]
  · exact iff_of_false (not_yields refused) (not_or.mpr ⟨not_yields refused', not_yields refused''⟩)

theorem atEmbeddedPointer_yields {blankBefore : Bool} :
    (r.move (.atEmbeddedPointer struct blankBefore)).Yields ks decls ↔
      ∃ name rest, ks = .word name :: rest ∧ isKeyword name = false ∧
        (r.move (.afterTypeName ⟨[.pointer], .field struct blankBefore none⟩ name)).Yields rest
          decls :=
  yields_name fun _ => rfl

theorem step_atField_word {newlines : Nat} {name : String} (free : isKeyword name = false) :
    (r.move (.atField struct newlines)).step (.word name) =
      .ok (r.move (.afterFieldName struct (decide (1 < newlines) && !struct.fields.isEmpty) name)) := by
  simp only [step, move, enterField]
  rw [if_neg (by simp [free])]

/-- The tokens of a field, and of nothing else, lead from the place of a field to the place after
it. -/
theorem atField_yields_of_derives {newlines : Nat} {front rest : List Kind}
    (derives : DerivesField (decide (1 < newlines) && !struct.fields.isEmpty) front field)
    (read : (r.move (.afterField (struct.push field))).Yields rest decls) :
    (r.move (.atField struct newlines)).Yields (front ++ rest) decls := by
  cases derives with
  | @embedded ks t type tag =>
      obtain ⟨name, more, rfl, free⟩ := type.exists_word
      rw [List.append_assoc]
      refine (yields_step (step_atField_word free)).mpr (afterFieldName_yields.mpr (.inl ?_))
      refine (afterTypeName_yields_derives free).mpr ⟨_, _, _, rfl, type, ?_⟩
      exact (afterFieldType_yields rfl).mpr ⟨tag, rest, rfl, read⟩
  | @embeddedPointer ks t type tag =>
      obtain ⟨name, more, rfl, free⟩ := type.exists_word
      rw [List.cons_append, List.append_assoc]
      refine (yields_step rfl).mpr (atEmbeddedPointer_yields.mpr ⟨name, _, rfl, free, ?_⟩)
      refine (afterTypeName_yields_derives free).mpr ⟨_, _, _, rfl, type, ?_⟩
      exact (afterFieldType_yields rfl).mpr ⟨tag, rest, rfl, read⟩
  | @named name ks t free type tag =>
      rw [List.cons_append, List.append_assoc]
      refine (yields_step (step_atField_word free)).mpr (afterFieldName_yields.mpr (.inr ?_))
      refine atType_yields.mpr ⟨ks, _, t, rfl, type, ?_⟩
      exact (afterFieldType_yields rfl).mpr ⟨tag, rest, rfl, read⟩

theorem atField_cases {newlines : Nat}
    (solid : ks.headD .eof ≠ .newline ∧ ks.headD .eof ≠ .punct .semicolon)
    (read : (r.move (.atField struct newlines)).Yields ks decls) :
    (∃ rest, ks = .punct .rightBrace :: rest ∧ (r.declare struct.decl).Yields rest decls) ∨
      ∃ front rest field,
        ks = front ++ rest ∧
        DerivesField (decide (1 < newlines) && !struct.fields.isEmpty) front field ∧
        (r.move (.afterField (struct.push field))).Yields rest decls := by
  cases ks with
  | nil => exact absurd read (not_yields rfl)
  | cons k ks =>
  cases k with
  | word name =>
      by_cases free : isKeyword name = true
      · refine absurd read (not_yields (c := .unexpected .field (.word name)) ?_)
        simp only [List.headD_cons, step, move, enterField]
        rw [if_pos free]
        rfl
      rw [Bool.not_eq_true] at free
      rw [yields_step (step_atField_word free), afterFieldName_yields] at read
      rcases read with read | read
      · obtain ⟨front, after, t, shape, type, complete⟩ := (afterTypeName_yields_derives free).mp read
        obtain ⟨tag, rest, rfl, left⟩ := (afterFieldType_yields rfl).mp complete
        refine .inr ⟨front ++ tagKinds tag, rest, _, ?_, .embedded type tag, left⟩
        rw [shape, List.append_assoc]
      · obtain ⟨front, after, t, rfl, type, complete⟩ := atType_yields.mp read
        obtain ⟨tag, rest, rfl, left⟩ := (afterFieldType_yields rfl).mp complete
        refine .inr ⟨.word name :: (front ++ tagKinds tag), rest, _, ?_, .named free type tag, left⟩
        rw [List.cons_append, List.append_assoc]
  | punct mark =>
      cases mark with
      | rightBrace => exact .inl ⟨ks, rfl, (yields_step rfl).mp read⟩
      | star =>
          rw [yields_step (q := r.move (.atEmbeddedPointer struct _)) rfl,
            atEmbeddedPointer_yields] at read
          obtain ⟨name, rest, rfl, free, read⟩ := read
          obtain ⟨front, after, t, shape, type, complete⟩ :=
            (afterTypeName_yields_derives free).mp read
          obtain ⟨tag, rest, rfl, left⟩ := (afterFieldType_yields rfl).mp complete
          refine .inr ⟨.punct .star :: (front ++ tagKinds tag), rest, _, ?_,
            .embeddedPointer type tag, left⟩
          rw [List.cons_append, shape, List.append_assoc]
      | semicolon => exact absurd rfl solid.2
      | _ => exact absurd read (not_yields rfl)
  | newline => exact absurd rfl solid.1
  | _ => exact absurd read (not_yields rfl)

/-! ## Structs -/

theorem atField_separators {newlines : Nat} {seps : List Kind} (separators : Separators seps) :
    (r.move (.atField struct newlines)).Yields (seps ++ ks) decls ↔
      (r.move (.atField (struct.separate seps) (newlines + seps.count .newline))).Yields ks
        decls := by
  induction seps generalizing struct newlines with
  | nil => rfl
  | cons k seps ih =>
      obtain ⟨here, later⟩ := List.forall_mem_cons.mp separators
      rcases here with rfl | rfl
      · rw [List.cons_append, yields_step (q := r.move (.atField { struct with multiline := true }
          (newlines + 1))) rfl, ih later]
        simp [OpenStruct.separate, Nat.add_assoc, Nat.add_comm 1]
      · rw [List.cons_append, yields_step (q := r.move (.atField struct newlines)) rfl, ih later]
        simp [OpenStruct.separate]

/-- A separator after a field says the same as one at the place of a field. -/
theorem afterField_separators {seps : List Kind} (separators : Separators seps) (some : seps ≠ []) :
    (r.move (.afterField struct)).Yields (seps ++ ks) decls ↔
      (r.move (.atField (struct.separate seps) (seps.count .newline))).Yields ks decls := by
  rw [← Nat.zero_add (seps.count .newline), ← atField_separators separators]
  apply yields_congr
  cases seps with
  | nil => exact absurd rfl some
  | cons k seps => rcases separators k List.mem_cons_self with rfl | rfl <;> rfl

/-- A struct that has been closed, after some more fields. -/
def closed (r : Reading) (struct : OpenStruct) (fields : List FieldDecl) (multiline : Bool) :
    Reading :=
  r.declare ⟨struct.name, .struct (struct.fields ++ fields) (multiline || struct.multiline)⟩

theorem closed_more (seps : List Kind) (fields : List FieldDecl) (multiline : Bool) :
    r.closed ((struct.separate seps).push field) fields multiline =
      r.closed struct (field :: fields) (seps.contains .newline || multiline) := by
  simp [closed, OpenStruct.separate, OpenStruct.push, Bool.or_comm, Bool.or_left_comm]

theorem declare_closed (seps : List Kind) :
    r.declare (struct.separate seps).decl = r.closed struct [] (seps.contains .newline) := by
  simp [closed, OpenStruct.separate, OpenStruct.decl]

theorem afterField_yields_of_derives {front rest : List Kind} {fields : List FieldDecl}
    {multiline : Bool} (filled : struct.fields ≠ [])
    (derives : DerivesMoreFields front fields multiline)
    (read : (r.closed struct fields multiline).Yields rest decls) :
    (r.move (.afterField struct)).Yields (front ++ .punct .rightBrace :: rest) decls := by
  induction derives generalizing struct with
  | @last seps separators =>
      rw [← declare_closed] at read
      by_cases none : seps = []
      · subst none
        exact (yields_step rfl).mpr read
      · exact (afterField_separators separators none).mpr ((yields_step rfl).mpr read)
  | @more seps ks field after fields multiline separators some first others ih =>
      rw [← closed_more] at read
      rw [List.append_assoc, List.append_assoc]
      apply (afterField_separators separators some).mpr
      refine atField_yields_of_derives ?_ (ih ?_ read)
      · rwa [struct.separate_filled seps filled, Bool.not_false, Bool.and_true]
      · simp [OpenStruct.push]

theorem afterField_cases (filled : struct.fields ≠ [])
    (read : (r.move (.afterField struct)).Yields ks decls) :
    ∃ front rest fields multiline, ks = front ++ .punct .rightBrace :: rest ∧
      DerivesMoreFields front fields multiline ∧
      (r.closed struct fields multiline).Yields rest decls := by
  induction size : ks.length using Nat.strongRecOn generalizing ks struct with
  | ind size ih =>
  subst size
  obtain ⟨seps, left, rfl, separators, solid⟩ := exists_separators ks
  by_cases some : seps = []
  · subst some
    cases left with
    | nil => exact absurd read (not_yields rfl)
    | cons k left =>
        cases k with
        | newline => exact absurd rfl solid.1
        | punct mark =>
            cases mark with
            | semicolon => exact absurd rfl solid.2
            | rightBrace =>
                refine ⟨[], left, [], _, rfl, .last separators, ?_⟩
                rw [← declare_closed]
                exact (yields_step rfl).mp read
            | _ => exact absurd read (not_yields rfl)
        | _ => exact absurd read (not_yields rfl)
  · rw [afterField_separators separators some] at read
    rcases atField_cases solid read with ⟨rest, rfl, read⟩ | ⟨ks, after, field, rfl, first, read⟩
    · refine ⟨seps, rest, [], _, rfl, .last separators, ?_⟩
      rwa [← declare_closed]
    · have fewer : after.length < (seps ++ (ks ++ after)).length := by
        have := List.length_pos_iff.mpr some
        simp only [List.length_append]
        omega
      obtain ⟨front, rest, fields, multiline, rfl, others, read⟩ :=
        ih _ fewer (by simp [OpenStruct.push]) read rfl
      rw [struct.separate_filled seps filled, Bool.not_false, Bool.and_true] at first
      refine ⟨seps ++ (ks ++ front), rest, field :: fields, _, by simp,
        .more separators some first others, ?_⟩
      rwa [← closed_more]

theorem atStruct_yields {name : String} :
    (r.move (.atStruct name)).Yields ks decls ↔
      ∃ front rest fields multiline, ks = .punct .leftBrace :: (front ++ .punct .rightBrace :: rest) ∧
        DerivesFields front fields multiline ∧
        (r.declare ⟨name, .struct fields multiline⟩).Yields rest decls := by
  have ended (fields : List FieldDecl) (multiline : Bool) :
      r.closed ⟨name, [], false⟩ fields multiline = r.declare ⟨name, .struct fields multiline⟩ := by
    simp [closed]
  rw [yields_punct (m := .leftBrace) (q := r.move (.atField ⟨name, [], false⟩ 0)) fun _ => rfl]
  constructor
  · intro given
    obtain ⟨ks, rfl, read⟩ := given
    obtain ⟨seps, left, rfl, separators, solid⟩ := exists_separators ks
    rw [atField_separators separators] at read
    rcases atField_cases solid read with ⟨rest, rfl, read⟩ | ⟨ks, after, field, rfl, first, read⟩
    · refine ⟨seps, rest, [], _, rfl, .none separators, ?_⟩
      rwa [← ended, ← declare_closed]
    · obtain ⟨front, rest, fields, multiline, rfl, others, read⟩ :=
        afterField_cases (by simp [OpenStruct.push]) read
      refine ⟨seps ++ (ks ++ front), rest, field :: fields, _, by simp,
        .some separators (by simpa [OpenStruct.separate] using first) others, ?_⟩
      rwa [← ended, ← closed_more]
  · intro given
    obtain ⟨front, rest, fields, multiline, rfl, derives, read⟩ := given
    refine ⟨_, rfl, ?_⟩
    rw [← ended] at read
    cases derives with
    | none separators =>
        rw [← declare_closed] at read
        exact (atField_separators separators).mpr ((yields_step rfl).mpr read)
    | @some seps ks field after fields multiline separators first others =>
        rw [← closed_more] at read
        rw [List.append_assoc, List.append_assoc, atField_separators separators]
        refine atField_yields_of_derives ?_ (afterField_yields_of_derives ?_ others read)
        · simpa [OpenStruct.separate] using first
        · simp [OpenStruct.push]

/-! ## Declarations -/

theorem atDeclName_yields :
    (r.move .atDeclName).Yields ks decls ↔
      ∃ front rest decl, .word "type" :: ks = front ++ rest ∧ DerivesDecl front decl ∧
        (r.declare decl).Yields rest decls := by
  rw [yields_name (f := fun name => r.move (.atBody name)) fun _ => rfl]
  constructor
  · intro given
    obtain ⟨name, ks, rfl, free, read⟩ := given
    by_cases struct : ks.headD .eof = .word "struct"
    · obtain ⟨ks, rfl⟩ : ∃ rest, ks = .word "struct" :: rest := by
        cases ks with
        | nil => cases struct
        | cons k rest => exact ⟨rest, congrArg (· :: rest) struct⟩
      rw [yields_step (q := r.move (.atStruct name)) rfl, atStruct_yields] at read
      obtain ⟨front, rest, fields, multiline, rfl, derives, read⟩ := read
      exact ⟨_, rest, _, by simp, .struct free derives, read⟩
    · rw [yields_congr (q := r.move (.atType ⟨[], .body name⟩))
        (by simp only [step, move]; rw [if_neg struct]; rfl), atType_yields] at read
      obtain ⟨front, rest, t, rfl, derives, read⟩ := read
      exact ⟨_, rest, _, rfl, .type free derives, read⟩
  · intro given
    obtain ⟨front, rest, decl, shape, derives, read⟩ := given
    cases derives with
    | @type name front t free derives =>
        cases shape
        refine ⟨name, _, rfl, free, ?_⟩
        obtain ⟨k, more, rfl, other⟩ := derives.exists_head
        refine (yields_congr (q := r.move (.atType ⟨[], .body name⟩)) ?_).mpr
          (atType_yields.mpr ⟨_, rest, t, rfl, derives, read⟩)
        exact if_neg other
    | @struct name front fields multiline free derives =>
        cases shape
        refine ⟨name, _, rfl, free, (yields_step rfl).mpr (atStruct_yields.mpr ?_)⟩
        exact ⟨front, rest, fields, multiline, by simp, derives, read⟩

theorem atDecl_separators {seps : List Kind} (separators : Separators seps) :
    (r.move .atDecl).Yields (seps ++ ks) decls ↔ (r.move .atDecl).Yields ks decls := by
  induction seps with
  | nil => rfl
  | cons k seps ih =>
      obtain ⟨here, later⟩ := List.forall_mem_cons.mp separators
      rw [← ih later]
      rcases here with rfl | rfl <;> exact yields_step rfl

theorem afterDecl_separators {seps : List Kind} (separators : Separators seps) (some : seps ≠ []) :
    (r.move .afterDecl).Yields (seps ++ ks) decls ↔ (r.move .atDecl).Yields ks decls := by
  rw [← atDecl_separators separators]
  apply yields_congr
  cases seps with
  | nil => exact absurd rfl some
  | cons k seps => rcases separators k List.mem_cons_self with rfl | rfl <;> rfl

theorem atDecl_cases (endless : .eof ∉ ks)
    (solid : ks.headD .eof ≠ .newline ∧ ks.headD .eof ≠ .punct .semicolon)
    (read : (r.move .atDecl).Yields ks decls) :
    (ks = [] ∧ decls = r.decls) ∨
      ∃ front rest decl, ks = front ++ rest ∧ DerivesDecl front decl ∧
        (r.declare decl).Yields rest decls := by
  cases ks with
  | nil =>
      obtain ⟨r', next, rfl⟩ := yields_nil.mp read
      cases next
      exact .inl ⟨rfl, rfl⟩
  | cons k ks =>
  cases k with
  | word s =>
      by_cases type : s = "type"
      · subst type
        exact .inr (atDeclName_yields.mp ((yields_step (q := r.move .atDeclName) rfl).mp read))
      · refine absurd read (not_yields (c := .unexpected .declaration (.word s)) ?_)
        simp only [List.headD_cons, step, move]
        rw [if_neg type]
        rfl
  | eof => exact absurd List.mem_cons_self endless
  | newline => exact absurd rfl solid.1
  | punct mark =>
      cases mark with
      | semicolon => exact absurd rfl solid.2
      | _ => exact absurd read (not_yields rfl)
  | _ => exact absurd read (not_yields rfl)

theorem atDecl_yields_of_derives {front rest : List Kind} {decl : TypeDecl}
    (derives : DerivesDecl front decl) (read : (r.declare decl).Yields rest decls) :
    (r.move .atDecl).Yields (front ++ rest) decls := by
  obtain ⟨more, rfl⟩ := derives.exists_more
  exact (yields_step rfl).mpr (atDeclName_yields.mpr ⟨_, rest, decl, rfl, derives, read⟩)

theorem afterDecl_yields_of_derives {more : List TypeDecl} (derives : DerivesMoreDecls ks more) :
    (r.move .afterDecl).Yields ks (r.decls ++ more) := by
  induction derives generalizing r with
  | @last seps separators =>
      by_cases none : seps = []
      · subst none
        exact yields_nil.mpr ⟨_, rfl, (List.append_nil _).symm⟩
      · rw [← List.append_nil seps, afterDecl_separators separators none]
        exact yields_nil.mpr ⟨_, rfl, (List.append_nil _).symm⟩
  | @more seps ks decl rest more separators some first others ih =>
      refine (afterDecl_separators separators some).mpr (atDecl_yields_of_derives first ?_)
      have read := ih (r := r.declare decl)
      rw [declare, List.append_assoc] at read
      exact read

theorem afterDecl_cases (endless : .eof ∉ ks) (read : (r.move .afterDecl).Yields ks decls) :
    ∃ more, decls = r.decls ++ more ∧ DerivesMoreDecls ks more := by
  induction size : ks.length using Nat.strongRecOn generalizing ks r with
  | ind size ih =>
  subst size
  obtain ⟨seps, left, rfl, separators, solid⟩ := exists_separators ks
  by_cases some : seps = []
  · subst some
    cases left with
    | nil =>
        obtain ⟨r', next, rfl⟩ := yields_nil.mp read
        cases next
        exact ⟨[], (List.append_nil _).symm, .last separators⟩
    | cons k left =>
        cases k with
        | newline => exact absurd rfl solid.1
        | eof => exact absurd List.mem_cons_self endless
        | punct mark =>
            cases mark with
            | semicolon => exact absurd rfl solid.2
            | _ => exact absurd read (not_yields rfl)
        | _ => exact absurd read (not_yields rfl)
  · rw [afterDecl_separators separators some] at read
    have endless' : .eof ∉ left := fun member => endless (List.mem_append_right seps member)
    rcases atDecl_cases endless' solid read with ⟨rfl, rfl⟩ | ⟨front, rest, decl, rfl, first, read⟩
    · refine ⟨[], (List.append_nil _).symm, ?_⟩
      rw [List.append_nil]
      exact .last separators
    · have fewer : rest.length < (seps ++ (front ++ rest)).length := by
        have := List.length_pos_iff.mpr some
        simp only [List.length_append]
        omega
      have endless'' : .eof ∉ rest := fun member => endless' (List.mem_append_right front member)
      obtain ⟨more, rfl, others⟩ := ih _ fewer (r := r.declare decl) endless'' read rfl
      exact ⟨decl :: more, by simp [declare], .more separators some first others⟩

theorem start_yields_of_derives (derives : DerivesFile ks decls) : start.Yields ks decls := by
  change (start.move .atDecl).Yields ks decls
  cases derives with
  | none separators =>
      rw [← List.append_nil ks, atDecl_separators separators]
      exact yields_nil.mpr ⟨_, rfl, rfl⟩
  | some separators derives others =>
      refine (atDecl_separators separators).mpr (atDecl_yields_of_derives derives ?_)
      exact afterDecl_yields_of_derives (r := start.declare _) others

theorem derives_of_start_yields (endless : .eof ∉ ks) (read : start.Yields ks decls) :
    DerivesFile ks decls := by
  change (start.move .atDecl).Yields ks decls at read
  obtain ⟨seps, left, rfl, separators, solid⟩ := exists_separators ks
  rw [atDecl_separators separators] at read
  have endless' : .eof ∉ left := fun member => endless (List.mem_append_right seps member)
  rcases atDecl_cases endless' solid read with ⟨rfl, rfl⟩ | ⟨front, rest, decl, rfl, derives, read⟩
  · rw [List.append_nil]
    exact .none separators
  · have endless'' : .eof ∉ rest := fun member => endless' (List.mem_append_right front member)
    obtain ⟨more, rfl, others⟩ := afterDecl_cases (r := start.declare decl) endless'' read
    exact .some separators derives others

theorem finished_of_step_eof (next : r.step .eof = .ok q) : q.phase = .finished := by
  obtain ⟨done, phase⟩ := r
  cases phase with
  | atDecl | afterDecl | finished =>
      cases next
      rfl
  | afterTypeName hole name =>
      replace next : (complete ⟨done, _⟩ hole (.name none name)).leaveType .eof = .ok q := next
      rw [leaveType_complete, step] at next
      rcases complete_phase ⟨done, .afterTypeName hole name⟩ hole (.name none name) with
        phase | ⟨struct, field, phase⟩ | ⟨hole', key, phase⟩
      · rw [phase] at next
        cases next
        rfl
      · rw [phase] at next
        cases next
      · rw [phase] at next
        cases next
  | _ => cases (id next : Except.error _ = Except.ok q)

/-- What stands after the first token of the end is not read. -/
theorem yields_append_eof {more : List Kind} :
    r.Yields (ks ++ .eof :: more) decls ↔ r.Yields ks decls := by
  induction ks generalizing r with
  | nil =>
      rw [List.nil_append, yields_cons, yields_nil]
      refine exists_congr fun r' => and_congr_right fun next => ?_
      have finished := finished_of_step_eof next
      constructor
      · intro given
        obtain ⟨i, read⟩ := given
        rw [run_finished finished] at read
        cases read
        rfl
      · rintro rfl
        exact ⟨0, run_finished finished 0⟩
  | cons k ks ih =>
      rw [List.cons_append, yields_cons, yields_cons]
      exact exists_congr fun r' => and_congr_right fun _ => ih

end Reading

theorem declsOfKinds_eq_ok {ks : List Kind} {decls : List TypeDecl} :
    declsOfKinds ks = .ok decls ↔ Reading.start.Yields ks decls := by
  constructor
  · intro read
    exact ⟨0, read⟩
  · intro yields
    obtain ⟨i, read⟩ := yields
    exact Reading.run_number i 0 read

/-- The places of tokens do not matter for what they are read as. -/
theorem declsOfTokens_eq_ok_iff_kinds {ts : List Token} {decls : List TypeDecl} :
    declsOfTokens ts = .ok decls ↔ declsOfKinds (ts.map (·.kind)) = .ok decls := by
  unfold declsOfTokens
  cases declsOfKinds (ts.map (·.kind)) <;> simp

theorem declsOfKinds_of_derives {ks : List Kind} {decls : List TypeDecl}
    (derives : DerivesFile ks decls) : declsOfKinds (ks ++ [.eof]) = .ok decls :=
  declsOfKinds_eq_ok.mpr (Reading.yields_append_eof.mpr (Reading.start_yields_of_derives derives))

theorem derives_of_declsOfKinds {ks : List Kind} {decls : List TypeDecl} (endless : .eof ∉ ks)
    (read : declsOfKinds (ks ++ [.eof]) = .ok decls) : DerivesFile ks decls :=
  Reading.derives_of_start_yields endless
    (Reading.yields_append_eof.mp (declsOfKinds_eq_ok.mp read))

end GoSchema.Source
