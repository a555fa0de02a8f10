import GoSchema.Proofs.Source.FileReading
import GoSchema.Proofs.Source.Layout
import GoSchema.Proofs.Source.Spelling
import GoSchema.Proofs.Text.Blank
import GoSchema.Source.Format

/-! # Printing and reading back

The tokens that the canonical text of declarations spells, and the declarations that derive from
them: the same ones, but for structs with fields, which always stand on several lines.
-/

namespace GoSchema.Source

/-- A name that can be read back. -/
def IsName (name : String) : Prop :=
  IsWord name ∧ isKeyword name = false

theorem IsWord.ne_empty {word : String} (valid : IsWord word) : word ≠ "" := by
  rintro rfl
  obtain ⟨c, cs, chars, -⟩ := valid
  cases chars

/-! ## Types -/

namespace TypeExpr

/-- All names of a type can be read back. -/
def Named : TypeExpr → Prop
  | .name none last => IsName last
  | .name (some package) last => IsName package ∧ IsName last
  | .pointer target => target.Named
  | .slice element => element.Named
  | .map key value => key.Named ∧ value.Named
  | .interface => True

def kinds : TypeExpr → List Kind
  | .name none last => [.word last]
  | .name (some package) last => [.word package, .punct .dot, .word last]
  | .pointer target => .punct .star :: target.kinds
  | .slice element => .punct .leftBracket :: .punct .rightBracket :: element.kinds
  | .map key value =>
    .word "map" :: .punct .leftBracket :: (key.kinds ++ .punct .rightBracket :: value.kinds)
  | .interface => [.word "interface", .punct .leftBrace, .punct .rightBrace]

variable {t : TypeExpr}

theorem writes_text (named : t.Named) : Writes t.text t.kinds := by
  induction t with
  | name package last =>
      cases package with
      | none => exact named.1.writes
      | some package =>
          have front := named.1.1.writes.append_leads ⟨'.', [], rfl, by decide +kernel⟩
            (leads_punct .dot)
          exact front.append_writes named.2.1.writes
  | pointer target ih => exact (leads_punct .star).append_writes (ih named)
  | slice element ih =>
      have front := (leads_punct .leftBracket).append (leads_punct .rightBracket)
      exact front.append_writes (ih named)
  | map key value ihKey ihValue =>
      have map : IsWord "map" := by decide +kernel
      have front : Leads "map[" [.word "map", .punct .leftBracket] :=
        map.writes.append_leads ⟨'[', [], rfl, by decide +kernel⟩ (leads_punct .leftBracket)
      have middle := (front.append_writes (ihKey named.1)).append_leads
        ⟨']', [], rfl, by decide +kernel⟩ (leads_punct .rightBracket)
      have all := middle.append_writes (ihValue named.2)
      rw [List.append_assoc, List.append_assoc] at all
      exact all
  | interface =>
      have word : IsWord "interface" := by decide +kernel
      have front := word.writes.append_leads ⟨'\x7b', [], rfl, by decide +kernel⟩
        (leads_punct .leftBrace)
      exact (front.append (leads_punct .rightBrace)).writes

theorem derives_name {package : Option String} {last : String}
    (named : (TypeExpr.name package last).Named) :
    DerivesTypeName (TypeExpr.name package last).kinds (.name package last) := by
  cases package with
  | none => exact .plain named.2
  | some package => exact .qualified named.1.2 named.2.2

theorem derives (named : t.Named) : DerivesType t.kinds t := by
  induction t with
  | name package last => exact .named (derives_name named)
  | pointer target ih => exact .pointer (ih named)
  | slice element ih => exact .slice (ih named)
  | map key value ihKey ihValue => exact .map (ihKey named.1) (ihValue named.2)
  | interface => exact .interface (List.forall_mem_nil _)

theorem text_ne_empty (named : t.Named) : t.text ≠ "" := by
  cases t with
  | name package last =>
      cases package with
      | none => exact named.1.ne_empty
      | some package => simp [text]
  | _ => simp [text]

end TypeExpr

/-! ## Fields -/

theorem leads_spaces (n : Nat) : Leads (spaces n) [] := by
  intro cs
  rw [spaces, String.toList_ofList]
  refine .gaps fun c member => ?_
  rw [List.eq_of_mem_replicate member]
  decide

theorem breaks_spaces {n : Nat} (some : 1 ≤ n) : Breaks (spaces n) := by
  obtain ⟨n, rfl⟩ : ∃ m, n = m + 1 := ⟨n - 1, by omega⟩
  exact ⟨' ', List.replicate n ' ', by rw [spaces, String.toList_ofList]; rfl, by decide +kernel⟩

theorem Writes.next {cell line : String} {ks ls : List Kind} {n : Nat} (first : Writes cell ks)
    (filled : cell ≠ "") (apart : cell ≠ "" → 1 ≤ n) (rest : Writes line ls) :
    Writes (cell ++ spaces n ++ line) (ks ++ ls) := by
  have front := first.append_leads (breaks_spaces (apart filled)) (leads_spaces n)
  rw [List.append_nil] at front
  exact front.append_writes rest

theorem Leads.skip {cell : String} {ks : List Kind} {n : Nat} (last : Leads cell ks) :
    Leads ("" ++ spaces n ++ cell) ks := by
  rw [String.empty_append]
  exact (leads_spaces n).append last

namespace FieldDecl

/-- A field that can be read back: an embedded one has a type name, with or without a star. -/
structure Named (field : FieldDecl) : Prop where
  name : ∀ name ∈ field.name, IsName name
  type : field.type.Named
  embedded : field.name = none →
    ∃ package base, field.type = .name package base ∨ field.type = .pointer (.name package base)
  tag : ∀ tag ∈ field.tag, IsLiteral tag

def kinds (field : FieldDecl) : List Kind :=
  (field.name.map .word).toList ++ (field.type.kinds ++ tagKinds field.tag)

variable {field : FieldDecl}

theorem derives (named : field.Named) : DerivesField field.blankBefore field.kinds field := by
  obtain ⟨name, type, tag, blankBefore⟩ := field
  have typed := named.type
  cases name with
  | some name => exact .named (named.name name rfl).2 (type.derives typed) tag
  | none =>
      obtain ⟨package, base, rfl | rfl⟩ := named.embedded rfl
      · exact .embedded (TypeExpr.derives_name typed) tag
      · exact .embeddedPointer (TypeExpr.derives_name typed) tag

theorem writes_line {line : String} (named : field.Named) (laid : LaidOut field.row line) :
    Writes line field.kinds := by
  obtain ⟨name, type, tag, blankBefore⟩ := field
  have typed := type.writes_text named.type
  have filled := type.text_ne_empty named.type
  cases name with
  | some name =>
      have valid := (named.name name rfl).1
      cases tag with
      | some tag =>
          cases laid with
          | next n apart rest =>
          cases rest with
          | next m apart' rest =>
          cases rest with
          | last =>
          have tagged := (named.tag tag rfl).leads.writes
          exact valid.writes.next valid.ne_empty apart (typed.next filled apart' tagged)
      | none =>
          cases laid with
          | next n apart rest =>
          cases rest with
          | last =>
          rw [kinds, tagKinds, Option.map_none, Option.toList_none, List.append_nil]
          exact valid.writes.next valid.ne_empty apart typed
  | none =>
      cases tag with
      | some tag =>
          cases laid with
          | next n apart rest =>
          cases rest with
          | next m apart' rest =>
          cases rest with
          | last =>
          exact typed.next filled apart (named.tag tag rfl).leads.skip.writes
      | none =>
          cases laid with
          | last =>
          simpa [kinds, tagKinds] using typed

theorem line_ne_empty {line : String} (named : field.Named) (laid : LaidOut field.row line) :
    line ≠ "" := by
  obtain ⟨name, type, tag, blankBefore⟩ := field
  have filled := type.text_ne_empty named.type
  cases name with
  | some name =>
      have valid := (named.name name rfl).1
      cases tag <;> exact laid.ne_empty valid.ne_empty
  | none => cases tag <;> exact laid.ne_empty filled

end FieldDecl

def fieldLines (fields : List FieldDecl) : List Kind :=
  fields.flatMap fun field =>
    (if field.blankBefore then [.newline] else []) ++ (field.kinds ++ [.newline])

theorem FieldDecl.leads_bodyLine {field : FieldDecl} {line : String} (named : field.Named)
    (laid : LaidOut field.row line) : Leads (bodyLine line) (field.kinds ++ [.newline]) := by
  have front := leads_tab.append_writes (field.writes_line named laid)
  rw [bodyLine, if_neg (field.line_ne_empty named laid)]
  exact front.append_leads ⟨'\n', [], rfl, by decide +kernel⟩ leads_newline

theorem leads_bodyLines {fields : List FieldDecl} {lines : List String}
    (named : ∀ field ∈ fields, field.Named) (laid : List.Forall₂ LaidOut (rows fields) lines) :
    Leads (String.join (lines.map bodyLine)) (fieldLines fields) := by
  induction fields generalizing lines with
  | nil =>
      cases laid
      exact .nil
  | cons field fields ih =>
      obtain ⟨here, later⟩ := List.forall_mem_cons.mp named
      have line {lines : List String}
          (laid : List.Forall₂ LaidOut (field.row :: rows fields) lines) :
          Leads (String.join (lines.map bodyLine)) (field.kinds ++ [.newline] ++ fieldLines fields) := by
        cases laid with
        | cons first rest =>
            rw [List.map_cons, String.join_cons]
            exact (field.leads_bodyLine here first).append (ih later rest)
      rw [rows, List.flatMap_cons] at laid
      rw [fieldLines, List.flatMap_cons]
      cases blank : field.blankBefore with
      | false =>
          rw [blank] at laid
          exact line laid
      | true =>
          rw [blank] at laid
          cases laid with
          | cons first rest =>
              cases first
              rw [List.map_cons, String.join_cons]
              exact leads_newline.append (line rest)

/-! ## Declarations -/

/-- A declaration that can be read back. -/
structure TypeDecl.Named (decl : TypeDecl) : Prop where
  name : IsName decl.name
  type : ∀ type, decl.body = .type type → type.Named
  fields : ∀ fields multiline, decl.body = .struct fields multiline →
    (∀ field ∈ fields, field.Named) ∧ ∀ field ∈ fields.head?, field.blankBefore = false

def Body.kinds : Body → List Kind
  | .type t => t.kinds
  | .struct [] false => [.word "struct", .punct .leftBrace, .punct .rightBrace]
  | .struct fields _ =>
    .word "struct" :: .punct .leftBrace :: .newline :: (fieldLines fields ++ [.punct .rightBrace])

theorem Body.kinds_multiline (fields : List FieldDecl) :
    (Body.struct fields true).kinds = .word "struct" :: .punct .leftBrace :: .newline ::
      (fieldLines fields ++ [.punct .rightBrace]) := by
  cases fields <;> rfl

/-- A declaration as it is printed: the fields of a struct stand on lines of their own. -/
def TypeDecl.spread (decl : TypeDecl) : TypeDecl :=
  match decl.body with
  | .struct fields multiline => { decl with body := .struct fields (multiline || !fields.isEmpty) }
  | .type _ => decl

def TypeDecl.kinds (decl : TypeDecl) : List Kind :=
  .word "type" :: .word decl.name :: decl.body.kinds

theorem isWord_struct : IsWord "struct" := by
  decide +kernel

theorem Writes.space {text : String} {ks : List Kind} (written : Writes text ks) :
    Leads (text ++ " ") ks := by
  have front := written.append_leads (breaks_spaces (Nat.le_refl 1)) (leads_spaces 1)
  rwa [List.append_nil] at front

theorem leads_structLine : Leads "struct \x7b\n" [.word "struct", .punct .leftBrace, .newline] :=
  isWord_struct.writes.space.append ((leads_punct .leftBrace).append leads_newline)

theorem leads_structEmpty :
    Leads "struct\x7b\x7d" [.word "struct", .punct .leftBrace, .punct .rightBrace] := by
  have front := (isWord_struct.writes.append_leads ⟨'\x7b', [], rfl, by decide +kernel⟩
    (leads_punct .leftBrace)).append (leads_punct .rightBrace)
  exact front

theorem leads_type : Leads "type " [.word "type"] := by
  have keyword : IsWord "type" := by decide +kernel
  exact keyword.writes.space

theorem leads_declStart {name : String} (valid : IsName name) :
    Leads ("type " ++ name ++ " ") [.word "type", .word name] :=
  (leads_type.append_writes valid.1.writes).space

/-- The end of the line of a field, and the lines after it. -/
theorem derives_fieldLines {fields : List FieldDecl} (named : ∀ field ∈ fields, field.Named) :
    DerivesMoreFields (.newline :: fieldLines fields) fields true := by
  induction fields with
  | nil => exact .last separators_newline
  | cons field fields ih =>
      obtain ⟨here, later⟩ := List.forall_mem_cons.mp named
      have first := field.derives here
      rw [fieldLines, List.flatMap_cons, List.append_assoc, List.append_assoc]
      cases blank : field.blankBefore with
      | false =>
          rw [blank] at first
          exact .more separators_newline (by simp) first (ih later)
      | true =>
          rw [blank] at first
          exact .more separators_blankLine (by simp) first (ih later)

namespace TypeDecl

variable {decl : TypeDecl}

theorem writes_body (named : decl.Named) : Writes decl.body.text decl.body.kinds := by
  obtain ⟨name, body⟩ := decl
  cases body with
  | type type => exact type.writes_text (named.type type rfl)
  | struct fields multiline =>
      cases fields with
      | nil =>
          cases multiline with
          | false => exact leads_structEmpty.writes
          | true => exact (leads_structLine.append (leads_punct .rightBrace)).writes
      | cons field fields =>
          obtain ⟨all, -⟩ := named.fields _ _ rfl
          have lines := leads_bodyLines all (forall₂_align (rows (field :: fields)))
          have whole := (leads_structLine.append lines).append (leads_punct .rightBrace)
          exact whole.writes

theorem writes_text (named : decl.Named) : Writes decl.text decl.kinds :=
  (leads_declStart named.name).append_writes (writes_body named)

theorem derives (named : decl.Named) : DerivesDecl decl.kinds decl.spread := by
  obtain ⟨name, body⟩ := decl
  cases body with
  | type type => exact .type named.name.2 (type.derives (named.type type rfl))
  | struct fields multiline =>
      cases fields with
      | nil =>
          cases multiline with
          | false => exact .struct named.name.2 (.none (List.forall_mem_nil _))
          | true =>
              exact .struct named.name.2 (.none separators_newline)
      | cons field fields =>
          obtain ⟨all, first⟩ := named.fields _ _ rfl
          obtain ⟨here, later⟩ := List.forall_mem_cons.mp all
          have derived := field.derives here
          have none : field.blankBefore = false := first field rfl
          rw [none] at derived
          have body : DerivesFields (.newline :: fieldLines (field :: fields)) (field :: fields)
              true := by
            rw [fieldLines, List.flatMap_cons, none, List.append_assoc, List.append_assoc]
            exact .some separators_newline derived (derives_fieldLines later)
          have all := DerivesDecl.struct named.name.2 body
          simpa [kinds, Body.kinds, spread] using all

end TypeDecl

/-! ## Files -/

def fileKinds : List TypeDecl → List Kind
  | [] => []
  | decl :: decls => decl.kinds ++ decls.flatMap fun decl => .newline :: .newline :: decl.kinds

variable {decls : List TypeDecl}

theorem writes_intercalate {texts : List String}
    (written : List.Forall₂ (fun text decl => Writes text decl.kinds) texts decls) :
    Writes ("\n\n".intercalate texts) (fileKinds decls) := by
  have blankLine : Leads "\n\n" [.newline, .newline] := leads_newline.append leads_newline
  cases written with
  | nil => exact Leads.nil.writes
  | @cons text decl texts decls here later =>
      induction later generalizing text decl with
      | nil => simpa [fileKinds] using here
      | @cons next following texts decls there later ih =>
          have rest := ih there
          have front := here.append_leads ⟨'\n', ['\n'], rfl, by decide +kernel⟩ blankLine
          have whole := front.append_writes rest
          rw [String.intercalate_cons_cons]
          simpa [fileKinds] using whole

theorem derives_moreDecls (named : ∀ decl ∈ decls, decl.Named) {seps : List Kind}
    (separators : Separators seps) :
    DerivesMoreDecls ((decls.flatMap fun decl => .newline :: .newline :: decl.kinds) ++ seps)
      (decls.map TypeDecl.spread) := by
  induction decls with
  | nil => exact .last separators
  | cons decl decls ih =>
      obtain ⟨here, later⟩ := List.forall_mem_cons.mp named
      have whole := DerivesMoreDecls.more separators_blankLine (by simp) (decl.derives here)
        (ih later)
      simpa using whole

/-- The tokens of a file derive its declarations, whatever separators follow. -/
theorem derives_fileKinds (named : ∀ decl ∈ decls, decl.Named) {seps : List Kind}
    (separators : Separators seps) :
    DerivesFile (fileKinds decls ++ seps) (decls.map TypeDecl.spread) := by
  cases decls with
  | nil => exact .none separators
  | cons decl decls =>
      obtain ⟨here, later⟩ := List.forall_mem_cons.mp named
      have whole := DerivesFile.some (List.forall_mem_nil _) (decl.derives here)
        (derives_moreDecls later separators)
      simpa [fileKinds] using whole

/-- A text is read as declarations when it spells tokens that derive them and then ends. -/
theorem parse_eq_ok_iff_derives {text : String} {decls : List TypeDecl} :
    parse text = .ok decls ↔
      ∃ ks, Spells text.toList (ks ++ [.eof]) ∧ DerivesFile ks decls := by
  rw [parse_eq_ok]
  constructor
  · intro given
    obtain ⟨ks, spelled, read⟩ := given
    obtain ⟨front, rfl, endless⟩ := spelled.exists_endless
    exact ⟨front, spelled, derives_of_declsOfKinds endless read⟩
  · intro given
    obtain ⟨ks, spelled, derives⟩ := given
    exact ⟨_, spelled, declsOfKinds_of_derives derives⟩

/-- Texts of declarations that can be read back, separated by blank lines, are read back. -/
theorem parse_intercalate {texts : List String} (named : ∀ decl ∈ decls, decl.Named)
    (written : List.Forall₂ (fun text decl => Writes text decl.kinds) texts decls) :
    parse ("\n\n".intercalate texts) = .ok (decls.map TypeDecl.spread) := by
  have derives := derives_fileKinds named (List.forall_mem_nil _)
  rw [List.append_nil] at derives
  exact parse_eq_ok_iff_derives.mpr ⟨_, (writes_intercalate written).spells, derives⟩

theorem print_eq_intercalate {decls : List TypeDecl} (some : decls ≠ []) :
    print decls = "\n\n".intercalate (decls.map TypeDecl.text) ++ "\n" := by
  cases decls with
  | nil => exact absurd rfl some
  | cons decl decls => rfl

theorem forall₂_writes_text {decls : List TypeDecl} (named : ∀ decl ∈ decls, decl.Named) :
    List.Forall₂ (fun text decl => Writes text decl.kinds) (decls.map TypeDecl.text) decls := by
  rw [List.forall₂_map_left_iff, List.forall₂_same]
  exact fun decl member => TypeDecl.writes_text (named decl member)

/-- Printed declarations are read back, with the fields of structs on lines of their own. -/
theorem parse_print {decls : List TypeDecl} (named : ∀ decl ∈ decls, decl.Named) :
    parse (print decls) = .ok (decls.map TypeDecl.spread) := by
  cases decls with
  | nil => exact parse_eq_ok_iff_derives.mpr ⟨[], .done, .none (List.forall_mem_nil _)⟩
  | cons decl decls =>
      have line := (writes_intercalate (forall₂_writes_text named)).append_leads ⟨'\n', [], rfl, by decide +kernel⟩
        leads_newline
      exact parse_eq_ok_iff_derives.mpr
        ⟨_, line.writes.spells, derives_fileKinds named separators_newline⟩

/-! ## The newline at the end -/

open Text (EndsSolid)

theorem IsWord.endsSolid {word : String} (valid : IsWord word) : EndsSolid word := by
  have filled : word.toList ≠ [] := mt String.toList_eq_nil_iff.mp valid.ne_empty
  refine ⟨word.toList.dropLast, word.toList.getLast filled,
    (List.dropLast_concat_getLast filled).symm, ?_⟩
  exact Text.isBlankChar_of_isWordChar (valid.all _ (List.getLast_mem filled))

theorem TypeExpr.endsSolid {t : TypeExpr} (named : t.Named) : EndsSolid t.text := by
  induction t with
  | name package last =>
      cases package with
      | none => exact named.1.endsSolid
      | some package => exact named.2.1.endsSolid.append _
  | pointer target ih => exact (ih named).append _
  | slice element ih => exact (ih named).append _
  | map key value _ ih => exact (ih named.2).append _
  | interface => exact ⟨"interface\x7b".toList, '\x7d', by decide, by decide⟩

theorem TypeDecl.endsSolid {decl : TypeDecl} (named : decl.Named) : EndsSolid decl.text := by
  obtain ⟨name, body⟩ := decl
  have brace : EndsSolid "\x7d" := ⟨[], '\x7d', rfl, by decide⟩
  refine EndsSolid.append ?_ _
  cases body with
  | type type => exact TypeExpr.endsSolid (named.type type rfl)
  | struct fields multiline =>
      cases fields with
      | nil =>
          cases multiline with
          | false => exact brace.append "struct\x7b"
          | true => exact brace.append "struct \x7b\n"
      | cons field fields => exact brace.append _

theorem intercalate_endsSolid {texts : List String} (some : texts ≠ [])
    (solid : ∀ text ∈ texts, EndsSolid text) : EndsSolid ("\n\n".intercalate texts) := by
  induction texts with
  | nil => exact absurd rfl some
  | cons text texts ih =>
      obtain ⟨here, later⟩ := List.forall_mem_cons.mp solid
      cases texts with
      | nil => exact here
      | cons next texts =>
          rw [String.intercalate_cons_cons]
          exact (ih (List.cons_ne_nil next texts) later).append _

/-- Trimming the canonical text takes away the newline at its end and nothing else. -/
theorem trim_print (named : ∀ decl ∈ decls, decl.Named) :
    Text.trim (print decls) = "\n\n".intercalate (decls.map TypeDecl.text) := by
  cases decls with
  | nil => decide
  | cons decl decls =>
      have ends : EndsSolid ("\n\n".intercalate ((decl :: decls).map TypeDecl.text)) := by
        apply intercalate_endsSolid (by simp)
        intro text member
        obtain ⟨decl, known, rfl⟩ := List.mem_map.mp member
        exact TypeDecl.endsSolid (named decl known)
      obtain ⟨more, begins⟩ :
          ∃ more, ("\n\n".intercalate ((decl :: decls).map TypeDecl.text)).toList = 't' :: more := by
        rw [List.map_cons, TypeDecl.text, String.append_assoc, String.append_assoc,
          String.intercalate_cons_append, String.toList_append]
        exact ⟨_, rfl⟩
      exact Text.trim_line ends begins (by decide)

end GoSchema.Source
