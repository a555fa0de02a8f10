import GoSchema.Proofs.FieldName
import GoSchema.Proofs.Source.Printing
import GoSchema.Proofs.Text.Blank
import GoSchema.Proofs.Text.ByteOrder
import GoSchema.Rendering

/-! # Rendered declarations say what they are rendered from

Declarations with keys that give names are rendered, and the text is read back as these
declarations. Nothing of a key or a tag gets out of its literal, and no name is a keyword.
-/

namespace GoSchema

open Source

/-! ## Types -/

def Ty.expr : Ty → TypeExpr
  | .scalar s => .name none s.source
  | .any => .interface
  | .named id => .name none ("J2S" ++ toString id)
  | .seq element => .slice element.expr

theorem isName_scalar (s : Scalar) : IsName s.source := by
  cases s <;> exact ⟨by decide +kernel, by decide⟩

/-- A word that does not begin as a keyword does is a name. -/
theorem IsWord.isName {word : String} (valid : IsWord word)
    (head : ∀ c, word.toList.head? = some c → c.isLower = false) : IsName word := by
  refine ⟨valid, Bool.eq_false_iff.mpr fun keyword => ?_⟩
  obtain ⟨c, first, lower⟩ := FieldName.keyword_head keyword
  rw [head c first] at lower
  cases lower

theorem isWordChar_of_isDigit {c : Char} (digit : c.isDigit = true) : isWordChar c = true := by
  have below : c.toNat < 0x80 := by
    simp only [Char.isDigit, Bool.and_eq_true, decide_eq_true_eq, UInt32.le_iff_toNat_le] at digit
    exact Nat.lt_of_le_of_lt digit.2 (by decide)
  rw [isWordChar, isDigit, Text.isDecimalDigit, if_pos below, digit, Bool.or_true]

theorem isName_typeId (id : TypeId) : IsName ("J2S" ++ toString id) := by
  have chars : ("J2S" ++ toString id).toList = 'J' :: '2' :: 'S' :: (toString id).toList := by
    rw [String.toList_append]
    rfl
  refine IsWord.isName ⟨'J', _, chars, by decide +kernel, ?_⟩ ?_
  · intro c member
    rcases List.mem_cons.mp member with rfl | later
    · decide +kernel
    · rcases List.mem_cons.mp later with rfl | digit
      · decide +kernel
      · rw [Nat.toString_eq_repr, Nat.repr_eq_ofList_toDigits, String.toList_ofList] at digit
        have digit := Nat.isDigit_of_mem_toDigits (by decide) (by decide) digit
        exact isWordChar_of_isDigit digit
  · intro c head
    rw [chars] at head
    cases head
    decide

theorem Ty.named_expr (t : Ty) : t.expr.Named := by
  induction t with
  | scalar s => exact isName_scalar s
  | any => trivial
  | named id => exact isName_typeId id
  | seq element ih => exact ih

theorem Ty.text_expr (t : Ty) : t.expr.text = t.source := by
  induction t with
  | scalar s => rfl
  | any => rfl
  | named id => rfl
  | seq element ih => exact congrArg ("[]" ++ ·) ih

/-! ## Fields -/

/-- The key of the tags, if there are any, does not end the raw strings that they are written as. -/
def Options.Quotable (options : Options) : Prop :=
  options.useTag = true → '\x60' ∉ options.effectiveTagName.toList

namespace Field

/-- The derived name of a field is a Go identifier. -/
def Nameable (field : Field) : Prop :=
  IsWord (FieldName.ofKey field.key)

/-- Does the tag of a field say `,omitempty`? -/
def Omits (options : Options) (field : Field) : Prop :=
  options.omitEmpty = .allFields ∨
    options.omitEmpty = .optionalFieldsOnly ∧ field.optional = true

instance (options : Options) (field : Field) : Decidable (field.Omits options) :=
  inferInstanceAs (Decidable (_ ∨ _))

/-- The declaration of a field: a pointer if it is optional, and a raw string as its tag. -/
def declared (options : Options) (field : Field) : FieldDecl where
  name := some (FieldName.ofKey field.key)
  type := if field.optional then .pointer field.type.expr else field.type.expr
  tag :=
    if options.useTag then
      some (rawString (options.effectiveTagName ++ ":\"" ++ field.key ++
        (if field.Omits options then ",omitempty" else "") ++ "\""))
    else none
  blankBefore := false

variable {options : Options} {field : Field}

theorem omitsEmpty_eq (options : Options) (field : Field) :
    field.omitsEmpty options.omitEmpty = decide (field.Omits options) := by
  obtain ⟨useTag, tagName, policy⟩ := options
  cases policy <;> simp [omitsEmpty, Omits]

theorem Nameable.isName (nameable : field.Nameable) : IsName (FieldName.ofKey field.key) :=
  ⟨nameable, FieldName.not_isKeyword_ofKey field.key⟩

/-- A key with a backtick gives no name. -/
theorem Nameable.not_mem (nameable : field.Nameable) : '\x60' ∉ field.key.toList := by
  intro member
  have kept := FieldName.mem_ofKey ⟨by decide, by decide⟩ member
  obtain ⟨c, cs, chars, letter, inside⟩ := nameable
  have plain : isLetter '\x60' = false ∧ isWordChar '\x60' = false := by decide +kernel
  rw [chars] at kept
  rcases List.mem_cons.mp kept with rfl | later
  · rw [plain.1] at letter
    cases letter
  · rw [inside _ later] at plain
    cases plain.2

theorem tagText_eq (options : Options) (field : Field) :
    field.tagText options = options.effectiveTagName ++ ":\"" ++ field.key ++
      (if field.Omits options then ",omitempty" else "") ++ "\"" := by
  rw [tagText, omitsEmpty_eq]
  simp only [decide_eq_true_eq]

theorem tag_plain (key : '\x60' ∉ field.key.toList)
    (tagged : '\x60' ∉ options.effectiveTagName.toList) :
    '\x60' ∉ (field.tagText options).toList := by
  rw [tagText_eq]
  split <;> simp [tagged, key]

theorem named_type (options : Options) (field : Field) : (field.declared options).type.Named := by
  unfold declared
  split <;> exact field.type.named_expr

theorem isLiteral_tag (key : '\x60' ∉ field.key.toList)
    (tagged : options.Quotable) :
    ∀ tag ∈ (field.declared options).tag, IsLiteral tag := by
  intro tag member
  change tag ∈ (if options.useTag = true then _ else none) at member
  split at member
  · rename_i used
    cases member
    rw [← tagText_eq]
    exact isLiteral_rawString (tag_plain key (tagged used))
  · cases member

theorem named_declared (nameable : field.Nameable)
    (tagged : options.Quotable) :
    (field.declared options).Named where
  name := by
    rintro name ⟨⟩
    exact nameable.isName
  type := field.named_type options
  embedded := by
    intro none
    cases none
  tag := isLiteral_tag nameable.not_mem tagged

theorem text_declared (options : Options) (field : Field) :
    (field.declared options).type.text =
      (if field.optional then "*" else "") ++ field.type.source := by
  rw [declared, ← Ty.text_expr]
  cases field.optional with
  | false => exact (String.empty_append).symm
  | true => rfl

/-- The line of a field is the row of its declaration, with one space after each cell. -/
theorem exists_laidOut (options : Options) (field : Field) :
    ∃ line, field.source options = line ++ "\n" ∧ LaidOut (field.declared options).row line := by
  have text := text_declared options field
  cases used : options.useTag with
  | false =>
      have row : (field.declared options).row =
          [FieldName.ofKey field.key, (field.declared options).type.text] := by
        simp [FieldDecl.row, declared, used]
      rw [row]
      refine ⟨_, ?_, .next 1 (fun _ => Nat.le_refl 1) (.last _)⟩
      rw [source, used, text]
      simp [spaces, String.append_assoc]
  | true =>
      have row : (field.declared options).row =
          [FieldName.ofKey field.key, (field.declared options).type.text,
            rawString (field.tagText options)] := by
        simp [FieldDecl.row, declared, used, tagText_eq]
      rw [row]
      refine ⟨_, ?_, .next 1 (fun _ => Nat.le_refl 1) (.next 1 (fun _ => Nat.le_refl 1) (.last _))⟩
      have opened : " `" = " " ++ "`" := by decide
      have space : spaces 1 = " " := by decide
      simp only [source, used, text, rawString, opened, space, String.append_assoc, if_true]

theorem leads_source (nameable : field.Nameable)
    (tagged : options.Quotable) :
    Leads (field.source options) ((field.declared options).kinds ++ [.newline]) := by
  obtain ⟨line, text, laid⟩ := exists_laidOut options field
  have written := FieldDecl.writes_line (named_declared nameable tagged) laid
  rw [text]
  exact written.append_leads ⟨'\n', [], rfl, by decide +kernel⟩ leads_newline

end Field

/-! ## Declarations -/

/-- The fields of a struct are its fields, ascending by the bytes of their keys; the other bodies
are types. -/
inductive Shape.Declares (options : Options) : Shape → Body → Prop where
  | scalar (s : Scalar) : Declares options (.scalar s) (.type (.name none s.source))
  | alias (t : Ty) : Declares options (.alias t) (.type t.expr)
  | struct {fields listed : List Field} (all : listed.Perm fields)
      (ascending : listed.Pairwise fun a b => Text.bytes a.key ≤ Text.bytes b.key) :
      Declares options (.struct fields) (.struct (listed.map (Field.declared options)) true)

/-- A declaration that is read back: its name is numbered, and its body says what it has to. -/
structure Decl.Declares (options : Options) (decl : Decl) (read : TypeDecl) : Prop where
  name : read.name = "J2S" ++ toString decl.id
  body : decl.shape.Declares options read.body

namespace Decl

/-- All keys of a declaration give names. -/
def Nameable (decl : Decl) : Prop :=
  ∀ fields, decl.shape = .struct fields → ∀ field ∈ fields, field.Nameable

def declared (options : Options) (decl : Decl) : TypeDecl :=
  ⟨"J2S" ++ toString decl.id,
    match decl.shape with
    | .scalar s => .type (.name none s.source)
    | .alias t => .type t.expr
    | .struct fields => .struct ((sortedByKey fields).map (Field.declared options)) true⟩

variable {options : Options} {decl : Decl}

theorem pairwise_sortedByKey (fields : List Field) :
    (sortedByKey fields).Pairwise fun a b => a.key ≤ b.key := by
  have ascending : (sortedByKey fields).Pairwise fun a b => decide (a.key ≤ b.key) = true := by
    refine List.pairwise_mergeSort ?_ ?_ fields
    · intro a b c ab bc
      simp only [decide_eq_true_eq] at ab bc ⊢
      exact le_trans ab bc
    · intro a b
      simp only [Bool.or_eq_true, decide_eq_true_eq]
      exact le_total a.key b.key
  exact ascending.imp of_decide_eq_true

theorem declares (options : Options) (decl : Decl) :
    decl.Declares options (decl.declared options) := by
  obtain ⟨id, shape⟩ := decl
  refine ⟨rfl, ?_⟩
  cases shape with
  | scalar s => exact .scalar s
  | «alias» t => exact .alias t
  | struct fields =>
      have ascending := pairwise_sortedByKey fields
      refine .struct (List.mergeSort_perm _ _) (ascending.imp fun {a b} less => ?_)
      exact (Text.bytes_le_bytes a.key b.key).mpr less

theorem mem_sortedByKey {field : Field} {fields : List Field} :
    field ∈ sortedByKey fields ↔ field ∈ fields :=
  List.mem_mergeSort

theorem named_declared (nameable : decl.Nameable)
    (tagged : options.Quotable) :
    (decl.declared options).Named := by
  obtain ⟨id, shape⟩ := decl
  refine ⟨isName_typeId id, ?_, ?_⟩
  · intro type body
    cases shape with
    | scalar s =>
        cases body
        exact isName_scalar s
    | «alias» t =>
        cases body
        exact t.named_expr
    | struct fields => cases body
  · intro fields multiline body
    cases shape with
    | struct fields =>
        cases body
        constructor
        · intro field member
          obtain ⟨field, known, rfl⟩ := List.mem_map.mp member
          exact Field.named_declared (nameable _ rfl field (mem_sortedByKey.mp known)) tagged
        · intro field head
          have member := List.mem_of_mem_head? head
          obtain ⟨field, -, rfl⟩ := List.mem_map.mp member
          rfl
    | _ => cases body

theorem leads_fields (fields : List Field) (nameable : ∀ field ∈ fields, field.Nameable)
    (tagged : options.Quotable) :
    Leads (String.join (fields.map (·.source options)))
      (fieldLines (fields.map (Field.declared options))) := by
  induction fields with
  | nil => exact .nil
  | cons field fields ih =>
      obtain ⟨here, later⟩ := List.forall_mem_cons.mp nameable
      rw [List.map_cons, String.join_cons]
      exact (Field.leads_source here tagged).append (ih later)

theorem writes_source (nameable : decl.Nameable)
    (tagged : options.Quotable) :
    Writes (decl.source options) (decl.declared options).kinds := by
  obtain ⟨id, shape⟩ := decl
  have front := leads_declStart (isName_typeId id)
  cases shape with
  | scalar s => exact front.append_writes (isName_scalar s).1.writes
  | «alias» t =>
      have written := TypeExpr.writes_text t.named_expr
      rw [t.text_expr] at written
      exact front.append_writes written
  | struct fields =>
      have lines := leads_fields (sortedByKey fields)
        (fun field member => nameable _ rfl field (mem_sortedByKey.mp member)) tagged
      have body := (leads_structLine.append lines).append (leads_punct .rightBrace)
      have whole := front.append body
      rw [TypeDecl.kinds, declared, Body.kinds_multiline]
      exact whole.writes

end Decl

theorem foldl_appendDecl (options : Options) (text : String) (some : text ≠ "")
    (decls : List Decl) : decls.foldl (appendDecl options) text =
      "\n\n".intercalate (text :: decls.map (Decl.source options)) := by
  induction decls generalizing text with
  | nil => rfl
  | cons decl decls ih =>
      have longer : text ++ "\n\n" ++ decl.source options ≠ "" := by simp [some]
      rw [List.foldl_cons, appendDecl, if_neg some, ih _ longer, List.map_cons,
        String.intercalate_cons_cons, String.intercalate_cons_append]

theorem emit_eq_intercalate (options : Options) (decls : List Decl) :
    emit options "" decls = "\n\n".intercalate (decls.map (Decl.source options)) := by
  cases decls with
  | nil => rfl
  | cons decl decls =>
      have some : decl.source options ≠ "" := by simp [Decl.source]
      have first : appendDecl options "" decl = decl.source options := String.empty_append
      rw [emit, List.foldl_cons, first, foldl_appendDecl options _ some, List.map_cons]

theorem Decl.spread_declared (options : Options) (decl : Decl) :
    (decl.declared options).spread = decl.declared options := by
  obtain ⟨id, shape⟩ := decl
  cases shape <;> rfl

theorem forall_named_declared {options : Options} {decls : List Decl}
    (nameable : ∀ decl ∈ decls, decl.Nameable)
    (tagged : options.Quotable) :
    ∀ decl ∈ decls.map (Decl.declared options), decl.Named := by
  intro _ member
  obtain ⟨decl, known, rfl⟩ := List.mem_map.mp member
  exact Decl.named_declared (nameable decl known) tagged

theorem map_spread_declared (options : Options) (decls : List Decl) :
    (decls.map (Decl.declared options)).map TypeDecl.spread =
      decls.map (Decl.declared options) := by
  rw [List.map_map]
  exact List.map_congr_left fun decl _ => decl.spread_declared options

/-- The text that is laid out is read as the declarations it is made from. -/
theorem parse_emit {options : Options} {decls : List Decl}
    (nameable : ∀ decl ∈ decls, decl.Nameable)
    (tagged : options.Quotable) :
    Source.parse (emit options "" decls) = .ok (decls.map (Decl.declared options)) := by
  rw [emit_eq_intercalate, ← map_spread_declared]
  apply parse_intercalate (forall_named_declared nameable tagged)
  rw [List.forall₂_map_left_iff, List.forall₂_map_right_iff, List.forall₂_same]
  exact fun decl member => Decl.writes_source (nameable decl member) tagged

end GoSchema
