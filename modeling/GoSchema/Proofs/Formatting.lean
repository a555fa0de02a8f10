import GoSchema.Proofs.Rendering
import GoSchema.Proofs.Source.ReadBack

/-! # Formatting keeps a program

A formatted text is read as the same declarations as the text it was made from, so formatting it
again changes nothing. What is rendered is formatted already, but for the newline at its end.
-/

namespace GoSchema

namespace Source

theorem TypeDecl.text_spread (decl : TypeDecl) : decl.spread.text = decl.text := by
  obtain ⟨name, body⟩ := decl
  cases body with
  | type type => rfl
  | struct fields multiline => cases fields <;> cases multiline <;> rfl

theorem print_spread (decls : List TypeDecl) : print (decls.map TypeDecl.spread) = print decls := by
  cases decls with
  | nil => rfl
  | cons decl decls =>
      rw [print_eq_intercalate (by simp), print_eq_intercalate (by simp), List.map_map]
      simp [Function.comp_def, TypeDecl.text_spread]

theorem format_eq_ok {text out : String} :
    format text = .ok out ↔ ∃ decls, parse text = .ok decls ∧ print decls = out := by
  rw [format]
  cases parse text <;> simp [Except.map]

/-- A formatted text is read as what it was made from. The fields of a struct, if there are any,
now stand on lines of their own; nothing else has changed. -/
theorem parse_of_format {text out : String} (formatted : format text = .ok out) :
    ∃ decls, parse text = .ok decls ∧ parse out = .ok (decls.map TypeDecl.spread) := by
  obtain ⟨decls, read, rfl⟩ := format_eq_ok.mp formatted
  exact ⟨decls, read, parse_print (named_of_parse read)⟩

/-- Embedded fields, escaped quotes, a raw string over two lines and structs on one line. -/
def unformatted : String :=
  ";type A struct\x7b*b.C \"\\\"\";D;\n\n\nString\tmap[E][]F `x\n y`\x7d\n\n\ntype G struct\x7b \x7d;"

def formattedText : String :=
  "type A struct \x7b\n\t*b.C \"\\\"\"\n\tD\n\n\tString map[E][]F `x\n y`\n\x7d\n\ntype G struct\x7b\x7d\n"

theorem parse_of_format_unformatted :
    format unformatted = .ok formattedText ∧
      ∃ decls, parse unformatted = .ok decls ∧
        parse formattedText = .ok (decls.map TypeDecl.spread) := by
  have formatted : format unformatted = .ok formattedText := by decide +kernel
  exact ⟨formatted, parse_of_format formatted⟩

theorem format_of_format {text out : String} (formatted : format text = .ok out) :
    format out = .ok out := by
  obtain ⟨decls, read, rfl⟩ := format_eq_ok.mp formatted
  exact format_eq_ok.mpr ⟨_, parse_print (named_of_parse read), print_spread decls⟩

/-- A text that begins with a declaration is not read as an empty file. -/
theorem ne_nil_of_parse_type {rest : String} {decls : List TypeDecl}
    (read : parse ("type " ++ rest) = .ok decls) : decls ≠ [] := by
  rintro rfl
  obtain ⟨ks, spelled, derives⟩ := parse_eq_ok_iff_derives.mp read
  rw [String.toList_append] at spelled
  obtain ⟨ms, tokens, -⟩ := (leads_type _ _).mp spelled
  cases derives with
  | none separators =>
      cases ks with
      | nil => cases tokens
      | cons k ks =>
          cases tokens
          simpa using separators _ List.mem_cons_self

/-- Without the newline at its end a formatted text is read alike. -/
theorem format_intercalate {decls : List TypeDecl} (named : ∀ decl ∈ decls, decl.Named)
    (some : decls ≠ []) :
    format ("\n\n".intercalate (decls.map TypeDecl.text)) =
      .ok ("\n\n".intercalate (decls.map TypeDecl.text) ++ "\n") := by
  refine format_eq_ok.mpr ⟨_, parse_intercalate named (forall₂_writes_text named), ?_⟩
  rw [print_spread, print_eq_intercalate some]

end Source

open Source

theorem format_of_render {options : Options} {decls : List Decl} {text : String}
    (some : decls ≠ []) (rendered : render options decls = .ok text) :
    Source.format (emit options "" decls) = .ok (text ++ "\n") ∧
      Source.format text = .ok (text ++ "\n") := by
  rw [render] at rendered
  cases formatted : Source.format (emit options "" decls) with
  | error e =>
      rw [formatted] at rendered
      cases rendered
  | ok out =>
      rw [formatted] at rendered
      cases rendered
      obtain ⟨found, read, rfl⟩ := format_eq_ok.mp formatted
      have named := named_of_parse read
      have nonempty : found ≠ [] := by
        obtain ⟨decl, others, rfl⟩ := List.exists_cons_of_ne_nil some
        rw [emit_eq_intercalate, List.map_cons, Decl.source, String.append_assoc,
          String.append_assoc, String.intercalate_cons_append] at read
        exact ne_nil_of_parse_type read
      rw [trim_print named]
      exact ⟨congrArg _ (print_eq_intercalate nonempty), format_intercalate named nonempty⟩

/-- A formatted text stays as it is. Rendering takes the newline off a formatted text and nothing
else, and formatting the result puts it back. -/
theorem format_fixed :
    (∀ text out, Source.format text = .ok out → Source.format out = .ok out) ∧
      ∀ options decls text, decls ≠ [] → render options decls = .ok text →
        Source.format (emit options "" decls) = .ok (text ++ "\n") ∧
          Source.format text = .ok (text ++ "\n") :=
  ⟨fun _ _ => format_of_format, fun _ _ _ => format_of_render⟩

/-- The empty key makes an embedded field, which is kept as one. -/
theorem format_fixed_emptyKey :
    Source.format unformatted = .ok formattedText ∧ Source.format formattedText = .ok formattedText ∧
      render .default [⟨1, .struct [⟨"", .scalar .bool, true⟩]⟩] =
        .ok "type J2S1 struct \x7b\n\t*bool `json:\"\"`\n\x7d" ∧
      Source.format "type J2S1 struct \x7b\n\t*bool `json:\"\"`\n\x7d" =
        .ok ("type J2S1 struct \x7b\n\t*bool `json:\"\"`\n\x7d" ++ "\n") := by
  have formatted : Source.format unformatted = .ok formattedText := by decide +kernel
  have rendered : render .default [⟨1, .struct [⟨"", .scalar .bool, true⟩]⟩] =
      .ok "type J2S1 struct \x7b\n\t*bool `json:\"\"`\n\x7d" := by decide +kernel
  exact ⟨formatted, format_fixed.1 _ _ formatted, rendered,
    (format_fixed.2 _ _ _ (List.cons_ne_nil _ _) rendered).2⟩

end GoSchema
