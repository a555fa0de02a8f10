import GoSchema.Conversion
import GoSchema.Proofs.Rendering
import GoSchema.Proofs.Schema.Keys
import GoSchema.Proofs.Source.Padding

/-! # What is rejected

Nothing checks the name of a field before its line is written: a conversion is rejected when the
text of the declarations cannot be read. So a line is judged as it stands. A key without quotes,
marks and newlines passes with blanks around its name, and a blank one passes as an embedded
field.
-/

namespace GoSchema

open Source

/-! ## Texts of declarations -/

def Source.IsGo (text : String) : Prop :=
  ∃ ks, Spells text.toList (ks ++ [.eof]) ∧ IsFile ks

theorem Source.isGo_iff {text : String} : IsGo text ↔ ∃ decls, parse text = .ok decls := by
  simp only [parse_eq_ok_iff_derives]
  constructor
  · intro is
    obtain ⟨ks, spelled, decls, derives⟩ := is
    exact ⟨decls, ks, spelled, derives⟩
  · intro read
    obtain ⟨decls, ks, spelled, derives⟩ := read
    exact ⟨ks, spelled, decls, derives⟩

theorem Source.isListOf_isDecl_iff {text : String} : IsListOf IsDecl text ↔ IsGo text :=
  exists_congr fun _ => and_congr_right fun _ => isFile_iff.symm

theorem exists_render_iff {options : Options} {decls : List Decl} :
    (∃ text, render options decls = .ok text) ↔ IsGo (emit options "" decls) := by
  rw [isGo_iff, render, format]
  cases Source.parse (emit options "" decls) with
  | error e =>
      constructor <;> rintro ⟨_, same⟩ <;> cases same
  | ok found => exact ⟨fun _ => ⟨found, rfl⟩, fun _ => ⟨_, rfl⟩⟩

/-! ## Keys -/

/-- A key that does not reach beyond the name that is made from it. -/
def Confined (key : String) : Prop :=
  ∀ c ∈ key.toList, c ∉ reaching

/-- A key without quotes, marks and newlines. -/
def Undelimited (key : String) : Prop :=
  ∀ c ∈ key.toList, c ∉ delimiters

theorem Undelimited.confined {key : String} (plain : Undelimited key) : Confined key :=
  fun c member => mt delimiter_of_reaching (plain c member)

theorem fixed_of_delimiter {c : Char} (delimits : c ∈ delimiters) : FieldName.Fixed c := by
  have all : (delimiters.all fun c => decide (FieldName.Fixed c)) = true := by decide
  exact of_decide_eq_true (List.all_eq_true.mp all c delimits)

theorem Confined.name {key : String} (confined : Confined key) :
    Confined (FieldName.ofKey key) := by
  intro c member reaches
  have fixed := fixed_of_delimiter (delimiter_of_reaching reaches)
  exact confined c (FieldName.mem_of_mem_ofKey fixed member) reaches

theorem Undelimited.name {key : String} (plain : Undelimited key) :
    Undelimited (FieldName.ofKey key) := by
  intro c member delimits
  exact plain c (FieldName.mem_of_mem_ofKey (fixed_of_delimiter delimits) member) delimits

/-! ## Fields -/

def Ty.HasName : Ty → Prop
  | .scalar _ | .named _ => True
  | .any | .seq _ => False

namespace Field

/-- The line of a field can be read as a list of fields. -/
def Readable (options : Options) (field : Field) : Prop :=
  ∃ ks, Spells (field.source options).toList (ks ++ [.eof]) ∧ IsFieldList ks

/-- The derived name is an identifier with blanks around it, or it is blank and the type may be
embedded. -/
def Fits (field : Field) : Prop :=
  ∃ name, Padded name (FieldName.ofKey field.key).toList ∧
    (IsName name ∨ name = "" ∧ field.type.HasName)

def tail (options : Options) (field : Field) : String :=
  (field.declared options).type.text ++
    match (field.declared options).tag with
    | some tag => " " ++ tag
    | none => ""

variable {options : Options} {field : Field}

theorem source_eq_tail (options : Options) (field : Field) : field.source options =
    FieldName.ofKey field.key ++ " " ++ field.tail options ++ "\n" := by
  have opened : " `" = " " ++ "`" := by decide
  rw [source, tail, text_declared]
  cases used : options.useTag with
  | false => simp [declared, used, String.append_assoc]
  | true =>
      simp only [declared, used, if_true, rawString, tagText_eq, opened, String.append_assoc]

theorem writes_tail (key : '\x60' ∉ field.key.toList)
    (tagged : options.Quotable) :
    Writes (field.tail options)
      ((field.declared options).type.kinds ++ tagKinds (field.declared options).tag) := by
  have type := TypeExpr.writes_text (field.named_type options)
  rw [tail]
  cases known : (field.declared options).tag with
  | none =>
      rw [String.append_empty, tagKinds, Option.map_none, Option.toList_none, List.append_nil]
      exact type
  | some tag =>
      have all := type.space.append (isLiteral_tag key tagged tag known).leads
      rw [String.append_assoc] at all
      exact all.writes

theorem closed_tail (options : Options) (field : Field) {flat : Bool} : Closed flat
    ((field.declared options).type.kinds ++ tagKinds (field.declared options).tag) :=
  (TypeExpr.derives (field.named_type options)).closed.append (closed_tagKinds _)

theorem readable_iff_isListOf :
    field.Readable options ↔ IsListOf IsField (field.source options) :=
  exists_congr fun _ => and_congr_right fun _ => isFieldList_iff

/-- Readable or not, the line of a field with a confined key keeps to itself. -/
theorem outcome_line (confined : Confined field.key)
    (tagged : options.Quotable) :
    Outcome IsField (FieldName.ofKey field.key ++ " " ++ field.tail options)
      (field.Readable options) := by
  have key : '\x60' ∉ field.key.toList := fun member => confined _ member (by decide)
  have line : Outcome IsField _ (IsListOf IsField _) :=
    outcome_of_name confined.name (writes_tail key tagged) (closed_tail options field)
  have whole := (line.lines cuttable_isField .empty).congr (and_iff_left trivial)
  rw [String.append_empty, ← source_eq_tail] at whole
  exact line.congr (whole.isListOf_iff.symm.trans readable_iff_isListOf.symm)

/-- A type without a name in front, and perhaps with a star, makes a field when it is a name. -/
theorem isField_type_iff (options : Options) (field : Field) :
    IsField ((field.declared options).type.kinds ++ tagKinds (field.declared options).tag) ↔
      field.type.HasName := by
  have starred {ks : List Kind} (is : IsField ((field.declared options).type.kinds ++ ks)) :
      IsField (field.type.expr.kinds ++ ks) := by
    unfold declared at is
    split at is
    · exact is.of_star
    · exact is
  constructor
  · intro is
    have bare := starred is
    cases known : field.type with
    | scalar | named => trivial
    | any =>
        rw [known] at bare
        rcases bare.head with ⟨name, same, free⟩ | same
        · cases same
          cases free
        · cases same
    | seq =>
        rw [known] at bare
        rcases bare.head with ⟨name, same, -⟩ | same <;> cases same
  · intro named
    have type : ∃ name, field.type.expr = .name none name ∧ IsName name := by
      cases known : field.type with
      | scalar s => exact ⟨_, rfl, isName_scalar s⟩
      | named id => exact ⟨_, rfl, isName_typeId id⟩
      | any | seq =>
          rw [known] at named
          exact named.elim
    obtain ⟨name, type, -, free⟩ := type
    unfold declared
    split
    · rw [type]
      exact ⟨false, _, .embeddedPointer (.plain free) _⟩
    · rw [type]
      exact ⟨false, _, .embedded (.plain free) _⟩

/-- A field with a key that holds no delimiter is readable when it fits. -/
theorem readable_iff (plain : Undelimited field.key)
    (tagged : options.Quotable) :
    field.Readable options ↔ field.Fits := by
  have key : '\x60' ∉ field.key.toList := fun member => plain _ member (by decide)
  rw [← (outcome_line plain.confined tagged).isListOf_iff,
    isListOf_line plain.name (field.named_type options) (writes_tail key tagged),
    isField_type_iff, Fits]

end Field

/-! ## Declarations -/

def ConfinedFields (fields : List Field) : Prop :=
  ∀ field ∈ fields, Confined field.key

namespace Decl

variable {options : Options}

theorem outcome_fields {fields : List Field} (confined : ConfinedFields fields)
    (tagged : options.Quotable) :
    Outcome IsField (String.join (fields.map (·.source options)))
      (∀ field ∈ fields, field.Readable options) := by
  induction fields with
  | nil => exact Outcome.empty.congr (iff_of_true trivial (List.forall_mem_nil _))
  | cons field fields ih =>
      obtain ⟨here, later⟩ := List.forall_mem_cons.mp confined
      have all := (Field.outcome_line here tagged).lines cuttable_isField (ih later)
      rw [List.map_cons, String.join_cons, Field.source_eq_tail]
      exact all.congr List.forall_mem_cons.symm

theorem outcome_struct {id : TypeId} {fields : List Field} (confined : ConfinedFields fields)
    (tagged : options.Quotable) :
    Outcome IsDecl (Decl.source options ⟨id, .struct fields⟩)
      (∀ field ∈ fields, field.Readable options) := by
  have name := isName_typeId id
  have front := (leads_declStart name).append leads_structLine
  have listed : ConfinedFields (sortedByKey fields) :=
    fun field member => confined field (mem_sortedByKey.mp member)
  have sorted := outcome_fields listed tagged
  have text : Decl.source options ⟨id, .struct fields⟩ =
      "type " ++ ("J2S" ++ toString id) ++ " " ++ "struct \x7b\n" ++
        String.join ((sortedByKey fields).map (·.source options)) ++ "\x7d" := by
    simp only [Decl.source, TypeId.source, Shape.source, String.append_assoc]
  have same : (∀ field ∈ sortedByKey fields, field.Readable options) ↔
      ∀ field ∈ fields, field.Readable options :=
    forall_congr' fun field => imp_congr_left mem_sortedByKey
  rw [text]
  refine Outcome.congr ?_ same
  cases sorted with
  | stuck never bad => exact .stuck ((front.stuck never).append _) bad
  | @spelled ks closed written means =>
      have body := (front.append_writes written).append_leads ⟨'\x7d', [], rfl, by decide +kernel⟩
        (leads_punct .rightBrace)
      have inner : Closed false (.newline :: ks) := closed.cons fun _ => by simp [Kind.level]
      have kinds : [Kind.word "type", .word ("J2S" ++ toString id)] ++
          [.word "struct", .punct .leftBrace, .newline] ++ ks ++ [.punct .rightBrace] =
          .word "type" :: .word ("J2S" ++ toString id) :: .word "struct" :: .punct .leftBrace ::
            (.newline :: ks ++ [.punct .rightBrace]) := by
        simp
      rw [kinds] at body
      refine .spelled ?_ body.writes ?_
      · exact ((inner.braces.cons fun _ => rfl).cons fun _ => rfl).cons fun _ => rfl
      · rw [← isFile_iff, isFile_struct name.2 inner, isFieldList_iff, ← means]
        constructor
        · intro separated
          have empty : Closed false [] := closed_nil
          exact (Separated.cut cuttable_isField empty separated).2
        · intro separated
          exact separated.before separators_newline

/-- A declaration whose keys give names can always be read. -/
theorem outcome_type {decl : Decl} (nameable : decl.Nameable)
    (tagged : options.Quotable) :
    Outcome IsDecl (decl.source options) True := by
  have derives := TypeDecl.derives (named_declared nameable tagged)
  refine .spelled derives.closed (writes_source nameable tagged) (iff_true_intro ?_)
  exact .alone ⟨_, derives⟩

theorem outcome {decl : Decl} (confined : ConfinedFields decl.shape.fields)
    (tagged : options.Quotable) :
    Outcome IsDecl (decl.source options)
      (∀ field ∈ decl.shape.fields, field.Readable options) := by
  obtain ⟨id, shape⟩ := decl
  cases shape with
  | struct fields => exact outcome_struct confined tagged
  | scalar | «alias» =>
      refine (outcome_type ?_ tagged).congr (iff_of_true trivial (List.forall_mem_nil _))
      intro fields struct
      cases struct

end Decl

theorem outcome_intercalate {options : Options} {decls : List Decl}
    (confined : ∀ decl ∈ decls, ConfinedFields decl.shape.fields)
    (tagged : options.Quotable) :
    Outcome IsDecl ("\n\n".intercalate (decls.map (Decl.source options)))
      (∀ decl ∈ decls, ∀ field ∈ decl.shape.fields, field.Readable options) := by
  induction decls with
  | nil => exact Outcome.empty.congr (iff_of_true trivial (List.forall_mem_nil _))
  | cons decl decls ih =>
      obtain ⟨here, later⟩ := List.forall_mem_cons.mp confined
      have first := Decl.outcome here tagged
      cases decls with
      | nil =>
          apply first.congr
          simp
      | cons next decls =>
          have blank := Outcome.lines cuttable_isDecl .empty (ih later)
          have all := first.lines cuttable_isDecl (blank.congr (and_iff_right trivial))
          have apart : "\n\n" = "\n" ++ "\n" := by decide
          rw [String.empty_append, ← String.append_assoc] at all
          rw [List.map_cons, List.map_cons, String.intercalate_cons_cons, apart,
            ← String.append_assoc, List.forall_mem_cons]
          exact all

/-- Declarations with confined keys are read exactly when each line of a field is. -/
theorem isGo_emit_iff {options : Options} {decls : List Decl}
    (confined : ∀ decl ∈ decls, ConfinedFields decl.shape.fields)
    (tagged : options.Quotable) :
    IsGo (emit options "" decls) ↔
      ∀ decl ∈ decls, ∀ field ∈ decl.shape.fields, field.Readable options := by
  rw [emit_eq_intercalate, ← isListOf_isDecl_iff]
  exact (outcome_intercalate confined tagged).isListOf_iff

/-! ## Conversions -/

/-- The ways to convert a sample: with which options, in which mode and to which result. -/
inductive Sample.Conversion (sample : Sample) :
    Options → Mode → Except ConversionError String → Prop where
  | merged (options : Options) : Conversion sample options .unified (sample.convert options)
  | outlined : Conversion sample .default .separate sample.outline

/-- A conversion fails since the declarations cannot be written. -/
def Rejected (result : Except ConversionError String) : Prop :=
  ∃ error, result = .error (.render error)

namespace Sample.Conversion

variable {sample : Sample} {options : Options} {mode : Mode}
  {result : Except ConversionError String}

theorem result_eq (conversion : sample.Conversion options mode result) :
    result = (render options (sample.decls mode)).mapError .render := by
  cases conversion <;> rfl

theorem rejected_iff_not_isGo (conversion : sample.Conversion options mode result) :
    Rejected result ↔ ¬IsGo (emit options "" (sample.decls mode)) := by
  rw [← exists_render_iff, conversion.result_eq]
  cases render options (sample.decls mode) with
  | error e => exact iff_of_true ⟨e, rfl⟩ (by rintro ⟨_, same⟩; cases same)
  | ok text => exact iff_of_false (by rintro ⟨_, same⟩; cases same) (not_not_intro ⟨text, rfl⟩)

/-- Only a key that gives no name is rejected. -/
theorem exists_key_of_rejected (conversion : sample.Conversion options mode result)
    (ordered : sample.Ordered)
    (tagged : options.Quotable)
    (rejected : Rejected result) :
    ∃ key, sample.HasKey key ∧ ¬IsName (FieldName.ofKey key) := by
  by_contra none
  have names : ∀ key, sample.HasKey key → IsName (FieldName.ofKey key) :=
    fun key has => by_contra fun other => none ⟨key, has, other⟩
  refine conversion.rejected_iff_not_isGo.mp rejected (isGo_iff.mpr ⟨_, parse_emit ?_ tagged⟩)
  intro decl member fields struct field present
  have declares : DeclaresKey (sample.decls mode) field.key :=
    ⟨decl, member, field, by rwa [struct], rfl⟩
  exact (names _ ((declaresKey_decls mode sample ordered _).mp declares)).1

/-- With confined keys, a conversion is rejected exactly when the line of some field cannot be
read. -/
theorem rejected_iff_exists (conversion : sample.Conversion options mode result)
    (ordered : sample.Ordered)
    (tagged : options.Quotable)
    (confined : ∀ key, sample.HasKey key → Confined key) :
    Rejected result ↔
      ∃ decl ∈ sample.decls mode, ∃ field ∈ decl.shape.fields, ¬field.Readable options := by
  have fields : ∀ decl ∈ sample.decls mode, ConfinedFields decl.shape.fields := by
    intro decl member field present
    exact confined _ ((declaresKey_decls mode sample ordered _).mp
      ⟨decl, member, field, present, rfl⟩)
  rw [conversion.rejected_iff_not_isGo, isGo_emit_iff fields tagged]
  simp only [not_forall, exists_prop]

/-- What is rejected: a text that derives from the grammar is not, and only keys that give no name
are to blame. With confined keys every field is judged by its line; without delimiters in them, it
is enough to take the blanks off the name. -/
theorem rejected_iff (conversion : sample.Conversion options mode result)
    (ordered : sample.Ordered)
    (tagged : options.useTag = true → '\x60' ∉ options.effectiveTagName.toList) :
    (Rejected result ↔ ¬IsGo (emit options "" (sample.decls mode))) ∧
    (Rejected result → ∃ key, sample.HasKey key ∧ ¬IsName (FieldName.ofKey key)) ∧
    ((∀ key, sample.HasKey key → Confined key) →
      (Rejected result ↔
        ∃ decl ∈ sample.decls mode, ∃ field ∈ decl.shape.fields, ¬field.Readable options) ∧
      ∀ key, sample.HasKey key → Undelimited key →
        (∀ name, Padded name (FieldName.ofKey key).toList → name ≠ "" ∧ ¬IsName name) →
        Rejected result) ∧
    ((∀ key, sample.HasKey key → Undelimited key) →
      (Rejected result ↔
        ∃ decl ∈ sample.decls mode, ∃ field ∈ decl.shape.fields, ¬field.Fits)) := by
  refine ⟨conversion.rejected_iff_not_isGo,
    conversion.exists_key_of_rejected ordered tagged, ?_, ?_⟩
  · intro confined
    have lines := conversion.rejected_iff_exists ordered tagged confined
    refine ⟨lines, ?_⟩
    intro key has plain bad
    obtain ⟨decl, member, field, present, rfl⟩ :=
      (declaresKey_decls mode sample ordered key).mpr has
    refine lines.mpr ⟨decl, member, field, present, ?_⟩
    rw [Field.readable_iff plain tagged]
    intro given
    obtain ⟨name, padded, valid | ⟨empty, -⟩⟩ := given
    · exact (bad name padded).2 valid
    · exact (bad name padded).1 empty
  · intro plain
    rw [conversion.rejected_iff_exists ordered tagged fun key has => (plain key has).confined]
    refine exists_congr fun decl => and_congr_right fun member => exists_congr fun field =>
      and_congr_right fun present => not_congr (Field.readable_iff ?_ tagged)
    exact plain _ ((declaresKey_decls mode sample ordered _).mp
      ⟨decl, member, field, present, rfl⟩)

end Sample.Conversion

def emptyKey : Sample :=
  .object [("", .bool true)]

/-- An empty key gives no name, and still it is not rejected. -/
theorem not_rejected_emptyKey : emptyKey.Ordered ∧ emptyKey.HasKey "" ∧
    ¬IsName (FieldName.ofKey "") ∧ ¬Rejected (emptyKey.convert .default) := by
  have ordered : emptyKey.Ordered := by
    simp [emptyKey, Sample.Ordered, Sample.OrderedMembers]
  have has : emptyKey.HasKey "" := .here List.mem_cons_self
  refine ⟨ordered, has, fun name => name.1.ne_empty rfl, ?_⟩
  have conversion : emptyKey.Conversion .default .unified (emptyKey.convert .default) :=
    .merged .default
  obtain ⟨-, -, -, fits⟩ := conversion.rejected_iff ordered fun _ => by decide
  have plain : ∀ key, emptyKey.HasKey key → Undelimited key := by
    intro key has
    cases has with
    | here member =>
        cases List.mem_singleton.mp member
        exact List.forall_mem_nil _
    | member member below =>
        cases List.mem_singleton.mp member
        cases below
  have declared : emptyKey.decls .unified = [⟨1, .struct [⟨"", .scalar .bool, false⟩]⟩] := by
    rfl
  rw [fits plain, declared]
  intro given
  obtain ⟨decl, member, field, present, unfit⟩ := given
  cases List.mem_singleton.mp member
  cases List.mem_singleton.mp present
  exact unfit ⟨"", ⟨[], [], List.forall_mem_nil _, List.forall_mem_nil _, rfl⟩, .inr ⟨rfl, trivial⟩⟩

end GoSchema
