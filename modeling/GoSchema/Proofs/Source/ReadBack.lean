import GoSchema.Proofs.Source.Printing

/-! # What has been read can be read back

A word or a literal that has been scanned is scanned again wherever it is written. So whatever a
text is read as consists of names and literals that can be read back.
-/

namespace GoSchema.Source

/-! ## Scanned tokens -/

/-- The backtick that closes a raw string does so whatever follows it. -/
theorem closingBacktick_take {cs : List Char} {n : Nat} (closed : closingBacktick cs = some n) :
    n ≤ cs.length ∧ ∀ more, closingBacktick (cs.take n ++ more) = some n := by
  induction cs generalizing n with
  | nil => cases closed
  | cons c cs ih =>
      rw [closingBacktick] at closed
      split at closed
      · rename_i quote
        cases closed
        exact ⟨by simp, fun more => by simp [closingBacktick, quote]⟩
      · rename_i other
        obtain ⟨m, found, rfl⟩ := Option.map_eq_some_iff.mp closed
        obtain ⟨fits, again⟩ := ih found
        exact ⟨by simpa using fits, fun more => by simp [closingBacktick, other, again more]⟩

/-- So does the quote that closes a string on one line. -/
theorem closingQuote_take {escaped : Bool} {cs : List Char} {n : Nat}
    (closed : closingQuote escaped cs = some n) :
    n ≤ cs.length ∧ ∀ more, closingQuote escaped (cs.take n ++ more) = some n := by
  induction escaped, cs using closingQuote.induct generalizing n with
  | case1 => cases closed
  | case2 escaped cs => cases closed
  | case3 c cs sameLine ih =>
      rw [closingQuote, if_neg sameLine, if_pos rfl] at closed
      obtain ⟨m, found, rfl⟩ := Option.map_eq_some_iff.mp closed
      obtain ⟨fits, again⟩ := ih found
      exact ⟨by simpa using fits, fun more => by simp [closingQuote, sameLine, again more]⟩
  | case4 escaped cs plain sameLine ih =>
      rw [closingQuote, if_neg sameLine, if_neg plain, if_pos rfl] at closed
      obtain ⟨m, found, rfl⟩ := Option.map_eq_some_iff.mp closed
      obtain ⟨fits, again⟩ := ih found
      exact ⟨by simpa using fits, fun more => by simp [closingQuote, plain, again more]⟩
  | case5 escaped cs plain =>
      rw [closingQuote, if_neg (by decide), if_neg plain, if_neg (by decide), if_pos rfl] at closed
      cases closed
      exact ⟨by simp, fun more => by simp [closingQuote, plain]⟩
  | case6 escaped c cs sameLine plain noBackslash noQuote ih =>
      rw [closingQuote, if_neg sameLine, if_neg plain, if_neg noBackslash, if_neg noQuote] at closed
      obtain ⟨m, found, rfl⟩ := Option.map_eq_some_iff.mp closed
      obtain ⟨fits, again⟩ := ih found
      exact ⟨by simpa using fits,
        fun more => by simp [closingQuote, sameLine, plain, noBackslash, noQuote, again more]⟩

/-- A word or a literal that is scanned again wherever it is written. -/
def Kind.Lasting : Kind → Prop
  | .word text => IsWord text
  | .str literal => IsLiteral literal
  | .number _ | .punct _ | .newline | .eof => True

theorem lexeme_lasting {c : Char} {cs : List Char} {k : Kind} {n : Nat}
    (here : lexeme c cs = .ok (k, n)) : k.Lasting := by
  cases lexeme_spec here with
  | rawString backtick closed =>
      subst backtick
      obtain ⟨fits, again⟩ := closingBacktick_take closed
      have taken : (cs.take n).length = n := List.length_take_of_le fits
      refine ⟨_, _, String.toList_ofList, by decide, by decide +kernel, fun more => ?_⟩
      simp [lexeme, again more, taken]
  | string quote closed =>
      subst quote
      obtain ⟨fits, again⟩ := closingQuote_take closed
      have taken : (cs.take n).length = n := List.length_take_of_le fits
      refine ⟨_, _, String.toList_ofList, by decide, by decide +kernel, fun more => ?_⟩
      simp [lexeme, again more, taken]
  | word letter => exact ⟨c, _, String.toList_ofList, letter, List.all_eq_true.mp List.all_takeWhile⟩
  | newline | number | punct => trivial

theorem Spells.lasting {cs : List Char} {ks : List Kind} (spelled : Spells cs ks) :
    ∀ k ∈ ks, k.Lasting := by
  induction spelled with
  | done => simp [Kind.Lasting]
  | gap _ _ ih => exact ih
  | token _ here _ ih => exact List.forall_mem_cons.mpr ⟨lexeme_lasting here, ih⟩

/-! ## Derived declarations -/

section

variable {ks : List Kind} {t : TypeExpr}

theorem DerivesTypeName.named_of_lasting (derives : DerivesTypeName ks t)
    (lasting : ∀ k ∈ ks, k.Lasting) : t.Named ∧ ∃ package base, t = .name package base := by
  cases derives with
  | plain free => exact ⟨⟨lasting (.word _) (by simp), free⟩, none, _, rfl⟩
  | qualified known free =>
      exact ⟨⟨⟨lasting (.word _) (by simp), known⟩, lasting (.word _) (by simp), free⟩,
        some _, _, rfl⟩

theorem DerivesType.named_of_lasting (derives : DerivesType ks t)
    (lasting : ∀ k ∈ ks, k.Lasting) : t.Named := by
  induction derives with
  | named name => exact (name.named_of_lasting lasting).1
  | pointer target ih => exact ih (List.forall_mem_cons.mp lasting).2
  | slice element ih =>
      simp only [List.forall_mem_cons] at lasting
      exact ih lasting.2.2
  | map key value ihKey ihValue =>
      simp only [List.forall_mem_cons, List.forall_mem_append] at lasting
      obtain ⟨-, -, front, -, back⟩ := lasting
      exact ⟨ihKey front, ihValue back⟩
  | interface separators => trivial

theorem isLiteral_of_lasting {tag : Option String} (lasting : ∀ k ∈ tagKinds tag, k.Lasting) :
    ∀ literal ∈ tag, IsLiteral literal := by
  rintro literal rfl
  exact lasting (.str literal) List.mem_cons_self

/-- A field knows whether it was derived after a blank line. -/
theorem DerivesField.named_of_lasting {blank : Bool} {field : FieldDecl}
    (derives : DerivesField blank ks field) (lasting : ∀ k ∈ ks, k.Lasting) :
    field.Named ∧ field.blankBefore = blank := by
  cases derives with
  | embedded type tag =>
      obtain ⟨front, back⟩ := List.forall_mem_append.mp lasting
      obtain ⟨named, package, base, same⟩ := type.named_of_lasting front
      exact ⟨⟨nofun, named, fun _ => ⟨package, base, .inl same⟩, isLiteral_of_lasting back⟩, rfl⟩
  | embeddedPointer type tag =>
      simp only [List.forall_mem_cons, List.forall_mem_append] at lasting
      obtain ⟨-, front, back⟩ := lasting
      obtain ⟨named, package, base, rfl⟩ := type.named_of_lasting front
      exact ⟨⟨nofun, named, fun _ => ⟨package, base, .inr rfl⟩, isLiteral_of_lasting back⟩, rfl⟩
  | named free type tag =>
      simp only [List.forall_mem_cons, List.forall_mem_append] at lasting
      obtain ⟨here, front, back⟩ := lasting
      refine ⟨⟨?_, type.named_of_lasting front, nofun, isLiteral_of_lasting back⟩, rfl⟩
      rintro name ⟨⟩
      exact ⟨here, free⟩

theorem DerivesMoreFields.named_of_lasting {fields : List FieldDecl} {multiline : Bool}
    (derives : DerivesMoreFields ks fields multiline) (lasting : ∀ k ∈ ks, k.Lasting) :
    ∀ field ∈ fields, field.Named := by
  induction derives with
  | last => exact List.forall_mem_nil _
  | more separators some first others ih =>
      simp only [List.forall_mem_append] at lasting
      obtain ⟨-, front, back⟩ := lasting
      exact List.forall_mem_cons.mpr ⟨(first.named_of_lasting front).1, ih back⟩

theorem DerivesFields.named_of_lasting {fields : List FieldDecl} {multiline : Bool}
    (derives : DerivesFields ks fields multiline) (lasting : ∀ k ∈ ks, k.Lasting) :
    (∀ field ∈ fields, field.Named) ∧ ∀ field ∈ fields.head?, field.blankBefore = false := by
  cases derives with
  | none => exact ⟨List.forall_mem_nil _, nofun⟩
  | some separators first others =>
      simp only [List.forall_mem_append] at lasting
      obtain ⟨-, front, back⟩ := lasting
      obtain ⟨named, blank⟩ := first.named_of_lasting front
      refine ⟨List.forall_mem_cons.mpr ⟨named, others.named_of_lasting back⟩, ?_⟩
      rintro field ⟨⟩
      exact blank

theorem DerivesDecl.named_of_lasting {decl : TypeDecl} (derives : DerivesDecl ks decl)
    (lasting : ∀ k ∈ ks, k.Lasting) : decl.Named := by
  cases derives with
  | type free type =>
      simp only [List.forall_mem_cons] at lasting
      obtain ⟨-, name, front⟩ := lasting
      refine ⟨⟨name, free⟩, ?_, nofun⟩
      rintro _ ⟨⟩
      exact type.named_of_lasting front
  | struct free body =>
      simp only [List.forall_mem_cons, List.forall_mem_append] at lasting
      obtain ⟨-, name, -, -, front, -⟩ := lasting
      refine ⟨⟨name, free⟩, nofun, ?_⟩
      rintro _ _ ⟨⟩
      exact body.named_of_lasting front

theorem DerivesMoreDecls.named_of_lasting {decls : List TypeDecl}
    (derives : DerivesMoreDecls ks decls) (lasting : ∀ k ∈ ks, k.Lasting) :
    ∀ decl ∈ decls, decl.Named := by
  induction derives with
  | last => exact List.forall_mem_nil _
  | more separators some first others ih =>
      simp only [List.forall_mem_append] at lasting
      obtain ⟨-, front, back⟩ := lasting
      exact List.forall_mem_cons.mpr ⟨first.named_of_lasting front, ih back⟩

theorem DerivesFile.named_of_lasting {decls : List TypeDecl} (derives : DerivesFile ks decls)
    (lasting : ∀ k ∈ ks, k.Lasting) : ∀ decl ∈ decls, decl.Named := by
  cases derives with
  | none => exact List.forall_mem_nil _
  | some separators first others =>
      simp only [List.forall_mem_append] at lasting
      obtain ⟨-, front, back⟩ := lasting
      exact List.forall_mem_cons.mpr
        ⟨first.named_of_lasting front, others.named_of_lasting back⟩

end

/-- What has been read can be read back. -/
theorem named_of_parse {text : String} {decls : List TypeDecl} (read : parse text = .ok decls) :
    ∀ decl ∈ decls, decl.Named := by
  obtain ⟨ks, spelled, derives⟩ := parse_eq_ok_iff_derives.mp read
  have lasting := spelled.lasting
  exact derives.named_of_lasting (List.forall_mem_append.mp lasting).1

end GoSchema.Source
