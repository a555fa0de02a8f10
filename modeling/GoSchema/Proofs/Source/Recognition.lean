import GoSchema.Proofs.Source.FileReading

/-! # Which tokens are read

Tokens are read as declarations when they derive these from the grammar, and otherwise refused.
Only the tokens up to the end of the text count.
-/

namespace GoSchema.Source

variable {ts : List Token} {ks more : List Kind}

theorem declsOfTokens_eq_ok_iff_derives (stream : ts.map (·.kind) = ks ++ .eof :: more)
    (endless : .eof ∉ ks) {decls : List TypeDecl} :
    declsOfTokens ts = .ok decls ↔ DerivesFile ks decls := by
  rw [declsOfTokens_eq_ok_iff_kinds, stream, declsOfKinds_eq_ok, Reading.yields_append_eof]
  exact ⟨Reading.derives_of_start_yields endless, Reading.start_yields_of_derives⟩

/-- A stream of tokens is read exactly when the grammar derives a file from it, and then as the
declarations of that file. No other declarations are derived from the same tokens. -/
theorem declsOfTokens_recognizes (stream : ts.map (·.kind) = ks ++ .eof :: more)
    (endless : .eof ∉ ks) :
    ((∃ decls, declsOfTokens ts = .ok decls) ↔ ∃ decls, DerivesFile ks decls) ∧
      ∀ decls, DerivesFile ks decls →
        declsOfTokens ts = .ok decls ∧ ∀ others, DerivesFile ks others → others = decls := by
  refine ⟨exists_congr fun _ => declsOfTokens_eq_ok_iff_derives stream endless, ?_⟩
  intro decls derives
  have read := (declsOfTokens_eq_ok_iff_derives stream endless).mpr derives
  refine ⟨read, fun others derives' => ?_⟩
  have read' := (declsOfTokens_eq_ok_iff_derives stream endless).mpr derives'
  exact (Except.ok.inj (read.symm.trans read')).symm

/-- A struct with an embedded, a qualified and a named field, newlines and semicolons between them,
and a second declaration. -/
def mixedSeparators : List Kind :=
  [.newline, .word "type", .word "Node", .word "struct", .punct .leftBrace, .punct .semicolon,
    .word "Base", .newline, .punct .semicolon, .newline, .punct .star, .word "pkg", .punct .dot,
    .word "Shared", .str "\"s\"", .punct .semicolon, .word "Next", .word "map",
    .punct .leftBracket, .word "string", .punct .rightBracket, .punct .star, .word "Node",
    .newline, .punct .rightBrace, .punct .semicolon, .word "type", .word "Id", .word "int"]

theorem declsOfTokens_recognizes_mixedSeparators :
    let decls : List TypeDecl :=
      [⟨"Node", .struct
        [⟨none, .name none "Base", none, false⟩,
          ⟨none, .pointer (.name (some "pkg") "Shared"), some "\"s\"", true⟩,
          ⟨some "Next", .map (.name none "string") (.pointer (.name none "Node")), none, false⟩]
        true⟩,
      ⟨"Id", .type (.name none "int")⟩]
    (∀ ts : List Token, ts.map (·.kind) = mixedSeparators ++ [.eof, .newline] →
        declsOfTokens ts = .ok decls) ∧
      DerivesFile mixedSeparators decls ∧
      ∀ others, DerivesFile mixedSeparators others → others = decls := by
  intro decls
  have endless : .eof ∉ mixedSeparators := by decide
  let ts : List Token := (mixedSeparators ++ [Kind.eof, .newline]).map (⟨·, .start⟩)
  have read : declsOfTokens ts = .ok decls := rfl
  have spelled : ts.map (·.kind) = mixedSeparators ++ [.eof, .newline] := rfl
  obtain ⟨recognized, determined⟩ := declsOfTokens_recognizes spelled endless
  obtain ⟨derived, derives⟩ := recognized.mp ⟨decls, read⟩
  obtain ⟨read', unique⟩ := determined derived derives
  obtain rfl : decls = derived := Except.ok.inj (read.symm.trans read')
  refine ⟨fun us stream => ?_, derives, unique⟩
  exact ((declsOfTokens_recognizes stream endless).2 decls derives).1

end GoSchema.Source
