import GoSchema.Proofs.Formatting

/-! # The lines of a formatted text

A formatted text is empty or ends with one newline. Its declarations are blocks of lines with one
empty line between them, the fields of a struct are indented by one tab, and no line ends with a
blank. A raw string may hold newlines of its own, which end no line.
-/

namespace GoSchema.Source

open Text (EndsSolid isBlankChar)

/-! ## Lines -/

/-- The number of characters behind `c` that belong to the literal it begins. -/
def literalLength (c : Char) (cs : List Char) : Nat :=
  if c = '\x60' then (closingBacktick cs).getD 0
  else if c = '"' then (closingQuote false cs).getD 0
  else 0

/-- Cut characters at each newline that is not part of a literal. -/
def cutLines : List Char → List (List Char)
  | [] => [[]]
  | c :: cs =>
    if c = '\n' then [] :: cutLines cs
    else (cutLines (cs.drop (literalLength c cs))).modifyHead
      (c :: cs.take (literalLength c cs) ++ ·)
termination_by cs => cs.length
decreasing_by all_goals (simp only [List.length_cons, List.length_drop]; omega)

def lines (text : String) : List String :=
  (cutLines text.toList).map String.ofList

theorem cutLines_ne_nil (cs : List Char) : cutLines cs ≠ [] := by
  induction cs using cutLines.induct with
  | case1 => simp [cutLines]
  | case2 cs ih => simp [cutLines]
  | case3 c cs other ih => simp [cutLines, other, ih]

/-- Nothing but the newlines between the lines is missing. -/
theorem intercalate_cutLines (cs : List Char) : ['\n'].intercalate (cutLines cs) = cs := by
  induction cs using cutLines.induct with
  | case1 => simp [cutLines]
  | case2 cs ih =>
      obtain ⟨line, others, found⟩ := List.exists_cons_of_ne_nil (cutLines_ne_nil cs)
      rw [cutLines, if_pos rfl, found, List.intercalate_cons_cons, ← found, ih]
      rfl
  | case3 c cs other ih =>
      let n := literalLength c cs
      obtain ⟨line, others, found⟩ := List.exists_cons_of_ne_nil (cutLines_ne_nil (cs.drop n))
      have whole : c :: (cs.take n ++ ['\n'].intercalate (line :: others)) = c :: cs := by
        rw [← found, ih, List.take_append_drop]
      rw [cutLines, if_neg other, found, List.modifyHead_cons, ← whole]
      cases others <;> simp [List.intercalate_cons_cons, n]

/-- Before anything else, a text stays on its line. -/
def Steady (text : String) : Prop :=
  ∀ cs, cutLines (text.toList ++ cs) = (cutLines cs).modifyHead (text.toList ++ ·)

theorem Steady.append {s t : String} (first : Steady s) (second : Steady t) : Steady (s ++ t) := by
  intro cs
  rw [String.toList_append, List.append_assoc, first, second, List.modifyHead_modifyHead]
  simp [Function.comp_def]

theorem lines_newline (text : String) : lines ("\n" ++ text) = "" :: lines text := by
  simp [lines, cutLines]

theorem Steady.lines_append {s : String} (steady : Steady s) (text : String) :
    lines (s ++ "\n" ++ text) = s :: lines text := by
  simp [lines, steady _, cutLines]

/-- Does `c` neither end a line nor begin a literal? -/
def isPlain (c : Char) : Bool :=
  c != '\n' && c != '\x60' && c != '"'

def Plain (text : String) : Prop :=
  ∀ c ∈ text.toList, isPlain c = true

instance (text : String) : Decidable (Plain text) :=
  decidable_of_iff (text.toList.all isPlain = true) List.all_eq_true

theorem Plain.append {s t : String} (first : Plain s) (second : Plain t) : Plain (s ++ t) := by
  rw [Plain, String.toList_append]
  exact List.forall_mem_append.mpr ⟨first, second⟩

theorem Plain.steady {text : String} (plain : Plain text) : Steady text := by
  unfold Steady
  unfold Plain at plain
  generalize text.toList = front at plain
  intro cs
  induction front with
  | nil => exact (congrFun List.modifyHead_id _).symm
  | cons c front ih =>
      obtain ⟨here, later⟩ := List.forall_mem_cons.mp plain
      simp only [isPlain, Bool.and_eq_true, bne_iff_ne] at here
      obtain ⟨⟨newline, backtick⟩, quote⟩ := here
      have single : literalLength c (front ++ cs) = 0 := by simp [literalLength, backtick, quote]
      rw [List.cons_append, cutLines, if_neg newline, single, List.drop_zero, ih later,
        List.modifyHead_modifyHead]
      rfl

theorem IsWord.plain {word : String} (valid : IsWord word) : Plain word := by
  intro c member
  have inside := valid.all c member
  have apart {d : Char} (other : isWordChar d = false) : c ≠ d := by
    rintro rfl
    simp [inside] at other
  have newline : c ≠ '\n' := apart (by decide +kernel)
  have backtick : c ≠ '\x60' := apart (by decide +kernel)
  have quote : c ≠ '"' := apart (by decide +kernel)
  simp [isPlain, newline, backtick, quote]

theorem IsLiteral.steady {literal : String} (valid : IsLiteral literal) : Steady literal := by
  obtain ⟨c, body, chars, solid, -, here⟩ := valid
  intro cs
  have found := here cs
  have taken : literalLength c (body ++ cs) = body.length ∧ c ≠ '\n' := by
    generalize body.length = n at found ⊢
    generalize same : Kind.str literal = k at found
    cases lexeme_spec found with
    | rawString backtick closed => simp [literalLength, backtick, closed]
    | string quote closed => simp [literalLength, quote, closed]
    | _ => cases same
  rw [chars, List.cons_append, cutLines, if_neg taken.2, taken.1, List.drop_left, List.take_left]

/-! ## How lines begin and end -/

/-- A text that does not begin with a blank. -/
def BeginsSolid (text : String) : Prop :=
  ∃ c cs, text.toList = c :: cs ∧ isBlankChar c = false

theorem BeginsSolid.append {text : String} (begins : BeginsSolid text) (more : String) :
    BeginsSolid (text ++ more) := by
  obtain ⟨c, cs, chars, solid⟩ := begins
  exact ⟨c, cs ++ more.toList, by rw [String.toList_append, chars, List.cons_append], solid⟩

theorem IsWord.beginsSolid {word : String} (valid : IsWord word) : BeginsSolid word := by
  obtain ⟨c, cs, chars, letter, -⟩ := valid
  exact ⟨c, cs, chars, Text.isBlankChar_of_isWordChar (by simp [isWordChar, letter])⟩

theorem getLast?_closingBacktick {cs : List Char} {n : Nat} (closed : closingBacktick cs = some n) :
    (cs.take n).getLast? = some '\x60' := by
  induction cs generalizing n with
  | nil => cases closed
  | cons c cs ih =>
      rw [closingBacktick] at closed
      split at closed
      · rename_i here
        cases closed
        simp [here]
      · obtain ⟨m, found, rfl⟩ := Option.map_eq_some_iff.mp closed
        simp [List.getLast?_cons, ih found]

theorem getLast?_closingQuote {escaped : Bool} {cs : List Char} {n : Nat}
    (closed : closingQuote escaped cs = some n) : (cs.take n).getLast? = some '"' := by
  induction escaped, cs using closingQuote.induct generalizing n with
  | case1 => cases closed
  | case2 => cases closed
  | case5 escaped cs plain =>
      simp [closingQuote, plain] at closed
      simp [← closed]
  | case3 c cs newline ih =>
      simp only [closingQuote, newline, reduceIte] at closed
      obtain ⟨m, found, rfl⟩ := Option.map_eq_some_iff.mp closed
      simp [List.getLast?_cons, ih found]
  | case4 escaped cs plain newline ih =>
      simp [closingQuote, plain] at closed
      obtain ⟨m, found, rfl⟩ := closed
      simp [List.getLast?_cons, ih found]
  | case6 escaped c cs newline plain noBackslash noQuote ih =>
      simp only [closingQuote, newline, plain, noBackslash, noQuote, reduceIte] at closed
      obtain ⟨m, found, rfl⟩ := Option.map_eq_some_iff.mp closed
      simp [List.getLast?_cons, ih found]

/-- A literal ends with its closing quote. -/
theorem IsLiteral.endsSolid {literal : String} (valid : IsLiteral literal) : EndsSolid literal := by
  obtain ⟨c, body, chars, -, -, here⟩ := valid
  have found := here []
  rw [List.append_nil] at found
  have last : ∃ quote, isBlankChar quote = false ∧ body.getLast? = some quote := by
    generalize size : body.length = n at found
    generalize same : Kind.str literal = k at found
    cases lexeme_spec found with
    | rawString _ closed =>
        have ends := getLast?_closingBacktick closed
        rw [← size, List.take_length] at ends
        exact ⟨'\x60', by decide, ends⟩
    | string _ closed =>
        have ends := getLast?_closingQuote closed
        rw [← size, List.take_length] at ends
        exact ⟨'"', by decide, ends⟩
    | _ => cases same
  obtain ⟨quote, solid, ends⟩ := last
  obtain ⟨front, rfl⟩ := List.getLast?_eq_some_iff.mp ends
  exact ⟨c :: front, quote, chars, solid⟩

namespace TypeExpr

variable {t : TypeExpr}

theorem plain_text (named : t.Named) : Plain t.text := by
  induction t with
  | name package last =>
      cases package with
      | none => exact named.1.plain
      | some package =>
          exact (named.1.1.plain.append (by decide)).append named.2.1.plain
  | pointer target ih => exact Plain.append (by decide) (ih named)
  | slice element ih => exact Plain.append (by decide) (ih named)
  | map key value ihKey ihValue =>
      exact ((Plain.append (by decide) (ihKey named.1)).append (by decide)).append (ihValue named.2)
  | interface => exact (by decide : Plain "interface\x7b\x7d")

theorem beginsSolid (named : t.Named) : BeginsSolid t.text := by
  cases t with
  | name package last =>
      cases package with
      | none => exact named.1.beginsSolid
      | some package => exact (named.1.1.beginsSolid.append ".").append last
  | pointer target => exact BeginsSolid.append ⟨'*', [], rfl, by decide⟩ target.text
  | slice element => exact BeginsSolid.append ⟨'[', [']'], rfl, by decide⟩ element.text
  | map key value =>
      exact ((BeginsSolid.append ⟨'m', ['a', 'p', '['], rfl, by decide⟩ key.text).append "]").append
        value.text
  | interface => exact ⟨'i', "nterface\x7b\x7d".toList, rfl, by decide⟩

end TypeExpr

/-! ## Rows -/

section

variable {row : Row} {line : String}

theorem Plain.spaces (n : Nat) : Plain (spaces n) := by
  intro c member
  rw [Source.spaces, String.toList_ofList] at member
  rw [List.eq_of_mem_replicate member]
  decide

theorem LaidOut.steady (laid : LaidOut row line) (cells : ∀ cell ∈ row, Steady cell) :
    Steady line := by
  induction laid with
  | none => exact Plain.steady (by decide)
  | last cell => exact cells cell (List.mem_singleton_self cell)
  | next n apart rest ih =>
      obtain ⟨here, later⟩ := List.forall_mem_cons.mp cells
      exact (here.append (Plain.spaces n).steady).append (ih later)

theorem LaidOut.beginsSolid {cell : String} (laid : LaidOut (cell :: row) line)
    (first : BeginsSolid cell) : BeginsSolid line := by
  cases laid with
  | last => exact first
  | next n apart rest => exact (first.append (spaces n)).append _

theorem LaidOut.endsSolid (laid : LaidOut row line) (some : row ≠ [])
    (last : ∀ cell ∈ row.getLast?, EndsSolid cell) : EndsSolid line := by
  induction laid with
  | none => exact absurd rfl some
  | last cell => exact last cell rfl
  | next n apart rest ih =>
      rw [List.getLast?_cons_cons] at last
      exact (ih (List.cons_ne_nil _ _) last).append _

/-- A line that begins and ends with something else than a blank. -/
structure IsLine (line : String) : Prop where
  steady : Steady line
  begins : BeginsSolid line
  ends : EndsSolid line

/-- The cells of such a line. -/
structure FillsLine (row : Row) : Prop where
  steady : ∀ cell ∈ row, Steady cell
  begins : ∃ cell rest, row = cell :: rest ∧ BeginsSolid cell
  ends : ∀ cell ∈ row.getLast?, EndsSolid cell

theorem LaidOut.isLine (laid : LaidOut row line) (fills : FillsLine row) : IsLine line := by
  obtain ⟨cell, rest, rfl, first⟩ := fills.begins
  have some : cell :: rest ≠ [] := List.cons_ne_nil cell rest
  exact ⟨laid.steady fills.steady, laid.beginsSolid first, laid.endsSolid some fills.ends⟩

end

theorem FieldDecl.fillsLine {field : FieldDecl} (named : field.Named) : FillsLine field.row := by
  obtain ⟨name, type, tag, blankBefore⟩ := field
  have plain := (type.plain_text named.type).steady
  have begins := type.beginsSolid named.type
  have ends := type.endsSolid named.type
  have nothing : Steady "" := Plain.steady (by decide)
  cases name with
  | some name =>
      have valid := (named.name name rfl).1
      cases tag with
      | some tag =>
          have literal := named.tag tag rfl
          refine ⟨?_, ⟨name, _, rfl, valid.beginsSolid⟩, by simp [row, literal.endsSolid]⟩
          simp [row, valid.plain.steady, plain, literal.steady]
      | none =>
          refine ⟨?_, ⟨name, _, rfl, valid.beginsSolid⟩, by simp [row, ends]⟩
          simp [row, valid.plain.steady, plain]
  | none =>
      cases tag with
      | some tag =>
          have literal := named.tag tag rfl
          refine ⟨?_, ⟨type.text, _, rfl, begins⟩, by simp [row, literal.endsSolid]⟩
          simp [row, nothing, plain, literal.steady]
      | none => exact ⟨by simp [row, plain], ⟨type.text, _, rfl, begins⟩, by simp [row, ends]⟩

/-! ## Tidy lines -/

/-- Neither the first nor the last of these lines is empty, nor are two in a row, and none ends with
a blank. -/
structure Tidy (lines : List String) : Prop where
  first : ∀ line ∈ lines.head?, line ≠ ""
  last : ∀ line ∈ lines.getLast?, line ≠ ""
  apart : lines.IsChain fun line next => line ≠ "" ∨ next ≠ ""
  ends : ∀ line ∈ lines, line = "" ∨ EndsSolid line

namespace Tidy

variable {front back : List String}

theorem nil : Tidy [] :=
  ⟨nofun, nofun, .nil, nofun⟩

theorem single {line : String} (ends : EndsSolid line) : Tidy [line] := by
  have some := ends.ne_empty
  exact ⟨by simp [some], by simp [some], .singleton line, by simp [ends]⟩

theorem append (tidy : Tidy front) (tidy' : Tidy back) : Tidy (front ++ back) where
  first := by
    intro line head
    rw [List.head?_append, Option.mem_def, Option.or_eq_some_iff] at head
    rcases head with here | ⟨-, there⟩
    · exact tidy.first line here
    · exact tidy'.first line there
  last := by
    intro line ending
    rw [List.getLast?_append, Option.mem_def, Option.or_eq_some_iff] at ending
    rcases ending with there | ⟨-, here⟩
    · exact tidy'.last line there
    · exact tidy.last line here
  apart := by
    refine List.isChain_append.mpr ⟨tidy.apart, tidy'.apart, ?_⟩
    exact fun line ending _ _ => .inl (tidy.last line ending)
  ends := List.forall_mem_append.mpr ⟨tidy.ends, tidy'.ends⟩

/-- An empty line may stand between lines. -/
theorem append_blank (tidy : Tidy front) (tidy' : Tidy back) (some : front ≠ [])
    (some' : back ≠ []) : Tidy (front ++ "" :: back) where
  first := by
    intro line head
    rw [List.head?_append_of_ne_nil _ some] at head
    exact tidy.first line head
  last := by
    intro line ending
    rw [List.getLast?_append_of_ne_nil _ (List.cons_ne_nil _ _)] at ending
    obtain ⟨next, others, rfl⟩ := List.exists_cons_of_ne_nil some'
    exact tidy'.last line (by simpa using ending)
  apart := by
    refine List.isChain_append.mpr ⟨tidy.apart, List.isChain_cons.mpr ⟨?_, tidy'.apart⟩, ?_⟩
    · exact fun next head => .inr (tidy'.first next head)
    · exact fun line ending _ _ => .inl (tidy.last line ending)
  ends := List.forall_mem_append.mpr ⟨tidy.ends, List.forall_mem_cons.mpr ⟨.inl rfl, tidy'.ends⟩⟩

theorem intercalate {blocks : List (List String)}
    (tidy : ∀ block ∈ blocks, Tidy block ∧ block ≠ []) : Tidy ([""].intercalate blocks) := by
  suffices whole : Tidy ([""].intercalate blocks) ∧
      (blocks ≠ [] → [""].intercalate blocks ≠ []) from whole.1
  induction blocks with
  | nil => exact ⟨nil, nofun⟩
  | cons block blocks ih =>
      obtain ⟨⟨here, some⟩, later⟩ := List.forall_mem_cons.mp tidy
      cases blocks with
      | nil => simpa using And.intro here some
      | cons next blocks =>
          obtain ⟨rest, filled⟩ := ih later
          rw [List.intercalate_cons_cons, List.append_assoc]
          exact ⟨here.append_blank rest some (filled (List.cons_ne_nil _ _)), by simp [some]⟩

end Tidy

/-! ## Structs -/

/-- A line of fields is empty or begins with one tab. -/
def Indented (line : String) : Prop :=
  line = "" ∨ ∃ text, line = "\t" ++ text ∧ BeginsSolid text

/-- The lines of fields: one each, after an empty one where a field asks for it. -/
inductive FieldLines : List FieldDecl → List String → Prop where
  | none : FieldLines [] []
  | adjoining {field fields line lines} (close : field.blankBefore = false) (here : IsLine line)
      (rest : FieldLines fields lines) : FieldLines (field :: fields) (("\t" ++ line) :: lines)
  | apart {field fields line lines} (far : field.blankBefore = true) (here : IsLine line)
      (rest : FieldLines fields lines) :
      FieldLines (field :: fields) ("" :: ("\t" ++ line) :: lines)

namespace FieldLines

variable {fields : List FieldDecl} {body : List String}

theorem indented (given : FieldLines fields body) : ∀ line ∈ body, Indented line := by
  induction given with
  | none => exact List.forall_mem_nil _
  | adjoining _ here _ ih => exact List.forall_mem_cons.mpr ⟨.inr ⟨_, rfl, here.begins⟩, ih⟩
  | apart _ here _ ih =>
      exact List.forall_mem_cons.mpr
        ⟨.inl rfl, List.forall_mem_cons.mpr ⟨.inr ⟨_, rfl, here.begins⟩, ih⟩⟩

theorem steady (given : FieldLines fields body) : ∀ line ∈ body, Steady line := by
  have tab : Steady "\t" := Plain.steady (by decide)
  induction given with
  | none => exact List.forall_mem_nil _
  | adjoining _ here _ ih => exact List.forall_mem_cons.mpr ⟨tab.append here.steady, ih⟩
  | apart _ here _ ih =>
      exact List.forall_mem_cons.mpr
        ⟨Plain.steady (by decide), List.forall_mem_cons.mpr ⟨tab.append here.steady, ih⟩⟩

/-- Behind a line that is not empty the lines of fields may begin with an empty one. -/
theorem tidy_cons (given : FieldLines fields body) {head : String} (ends : EndsSolid head) :
    Tidy (head :: body) := by
  induction given generalizing head with
  | none => exact .single ends
  | adjoining _ here _ ih => exact (Tidy.single ends).append (ih (here.ends.append "\t"))
  | apart _ here _ ih =>
      exact (Tidy.single ends).append_blank (ih (here.ends.append "\t")) (List.cons_ne_nil _ _)
        (List.cons_ne_nil _ _)

theorem tidy (given : FieldLines fields body)
    (first : ∀ field ∈ fields.head?, field.blankBefore = false) : Tidy body := by
  cases given with
  | none => exact .nil
  | adjoining _ here rest => exact rest.tidy_cons (here.ends.append "\t")
  | apart far =>
      rw [first _ rfl] at far
      cases far

end FieldLines

/-- A line between the braces of a struct. -/
def indent (line : String) : String :=
  if line = "" then "" else "\t" ++ line

theorem bodyLine_eq (line : String) : bodyLine line = indent line ++ "\n" := by
  unfold bodyLine indent
  split <;> rfl

theorem IsLine.indent {line : String} (is : IsLine line) : indent line = "\t" ++ line :=
  if_neg is.ends.ne_empty

theorem fieldLines_of_laidOut {fields : List FieldDecl} {ls : List String}
    (named : ∀ field ∈ fields, field.Named) (laid : List.Forall₂ LaidOut (rows fields) ls) :
    FieldLines fields (ls.map indent) := by
  induction fields generalizing ls with
  | nil =>
      cases laid
      exact .none
  | cons field fields ih =>
      obtain ⟨here, later⟩ := List.forall_mem_cons.mp named
      rw [rows, List.flatMap_cons] at laid
      cases blank : field.blankBefore with
      | false =>
          rw [blank] at laid
          cases laid with
          | cons first rest =>
              have line := first.isLine (field.fillsLine here)
              rw [List.map_cons, line.indent]
              exact .adjoining blank line (ih later rest)
      | true =>
          rw [blank] at laid
          cases laid with
          | cons empty rest =>
          cases empty
          cases rest with
          | cons first rest =>
              have line := first.isLine (field.fillsLine here)
              rw [List.map_cons, List.map_cons, line.indent]
              exact .apart blank line (ih later rest)

theorem lines_join {ls : List String} (steady : ∀ line ∈ ls.map indent, Steady line)
    (text : String) :
    lines (String.join (ls.map bodyLine) ++ text) = ls.map indent ++ lines text := by
  induction ls with
  | nil => simp
  | cons line ls ih =>
      obtain ⟨here, later⟩ := List.forall_mem_cons.mp steady
      rw [List.map_cons, String.join_cons, String.append_assoc, bodyLine_eq, here.lines_append,
        ih later, List.map_cons, List.cons_append]

/-! ## Declarations -/

/-- The lines of a declaration: one, or those of a struct, with its opening brace at the end of the
first and its closing brace on the last. -/
inductive Block : TypeDecl → List String → Prop where
  | type (name : String) (t : TypeExpr) : Block ⟨name, .type t⟩ ["type " ++ name ++ " " ++ t.text]
  | noFields (name : String) : Block ⟨name, .struct [] false⟩ ["type " ++ name ++ " struct\x7b\x7d"]
  | struct (name : String) {fields : List FieldDecl} {body : List String} (tidy : Tidy body)
      (indented : ∀ line ∈ body, Indented line) :
      Block ⟨name, .struct fields true⟩ (("type " ++ name ++ " struct \x7b") :: (body ++ ["\x7d"]))

theorem Body.text_struct {fields : List FieldDecl} {multiline : Bool}
    (some : multiline || !fields.isEmpty) :
    (Body.struct fields multiline).text =
      "struct \x7b\n" ++ String.join ((align (rows fields)).map bodyLine) ++ "\x7d" := by
  cases fields with
  | nil =>
      simp only [List.isEmpty_nil, Bool.not_true, Bool.or_false] at some
      rw [some]
      decide
  | cons field fields => rfl

theorem TypeDecl.lines_struct {name : String} {fields : List FieldDecl} {multiline : Bool}
    (valid : IsName name) (some : multiline || !fields.isEmpty)
    (steady : ∀ line ∈ (align (rows fields)).map indent, Steady line) (text : String) :
    lines ((TypeDecl.mk name (.struct fields multiline)).text ++ "\n" ++ text) =
      ("type " ++ name ++ " struct \x7b") :: ((align (rows fields)).map indent ++ ["\x7d"]) ++
        lines text := by
  have head : Steady ("type " ++ name ++ " struct \x7b") :=
    ((Plain.append (by decide) valid.1.plain).append (by decide)).steady
  have brace : Steady "\x7d" := Plain.steady (by decide)
  have cut : (TypeDecl.mk name (.struct fields multiline)).text ++ "\n" ++ text =
      ("type " ++ name ++ " struct \x7b") ++ "\n" ++
        (String.join ((align (rows fields)).map bodyLine) ++ ("\x7d" ++ "\n" ++ text)) := by
    rw [TypeDecl.text, Body.text_struct some]
    simp [← String.toList_inj]
  rw [cut, head.lines_append, lines_join steady, brace.lines_append]
  simp

/-- A declaration before a newline is a block of lines. -/
theorem TypeDecl.exists_block {decl : TypeDecl} (named : decl.Named) :
    ∃ block, Block decl.spread block ∧ Tidy block ∧ block ≠ [] ∧
      ∀ text, lines (decl.text ++ "\n" ++ text) = block ++ lines text := by
  have ends := TypeDecl.endsSolid named
  obtain ⟨name, body⟩ := decl
  have start : Plain ("type " ++ name ++ " ") :=
    (Plain.append (by decide) named.name.1.plain).append (by decide)
  cases body with
  | type type =>
      have steady := (start.append (type.plain_text (named.type type rfl))).steady
      exact ⟨_, .type name type, .single ends, List.cons_ne_nil _ _, steady.lines_append⟩
  | struct fields multiline =>
      cases some : multiline || !fields.isEmpty with
      | false =>
          obtain ⟨rfl, rfl⟩ : multiline = false ∧ fields = [] := by simpa using some
          have steady : Steady ("type " ++ name ++ " struct\x7b\x7d") :=
            ((Plain.append (by decide) named.name.1.plain).append (by decide)).steady
          have same : (TypeDecl.mk name (.struct [] false)).text =
              "type " ++ name ++ " struct\x7b\x7d" := by
            simp [TypeDecl.text, Body.text, ← String.toList_inj]
          rw [same] at ends ⊢
          exact ⟨_, .noFields name, .single ends, List.cons_ne_nil _ _, steady.lines_append⟩
      | true =>
          obtain ⟨all, first⟩ := named.fields _ _ rfl
          have given := fieldLines_of_laidOut all (forall₂_align (rows fields))
          have head : EndsSolid ("type " ++ name ++ " struct \x7b") :=
            EndsSolid.append ⟨" struct ".toList, '\x7b', by decide, by decide⟩ _
          have brace : EndsSolid "\x7d" := ⟨[], '\x7d', rfl, by decide⟩
          refine ⟨_, ?_, (given.tidy_cons head).append (.single brace), List.cons_ne_nil _ _, ?_⟩
          · simp only [spread, some]
            exact .struct name (given.tidy first) given.indented
          · exact lines_struct named.name some given.steady

/-! ## Files -/

theorem lines_print {decls : List TypeDecl} (named : ∀ decl ∈ decls, decl.Named) :
    ∃ blocks, List.Forall₂ Block (decls.map TypeDecl.spread) blocks ∧
      (∀ block ∈ blocks, Tidy block ∧ block ≠ []) ∧
      lines (print decls) = [""].intercalate blocks ++ [""] := by
  induction decls with
  | nil => exact ⟨[], .nil, List.forall_mem_nil _, by simp [print, lines, cutLines]⟩
  | cons decl decls ih =>
      obtain ⟨here, later⟩ := List.forall_mem_cons.mp named
      obtain ⟨block, is, tidy, some, found⟩ := decl.exists_block here
      obtain ⟨blocks, are, others, rest⟩ := ih later
      refine ⟨block :: blocks, .cons is are, List.forall_mem_cons.mpr ⟨⟨tidy, some⟩, others⟩, ?_⟩
      cases decls with
      | nil =>
          cases are
          have alone := found ""
          rw [String.append_empty] at alone
          simpa [print, lines, cutLines] using alone
      | cons next decls =>
          have split : print (decl :: next :: decls) =
              decl.text ++ "\n" ++ ("\n" ++ print (next :: decls)) := by
            simp [print_eq_intercalate, String.intercalate_cons_cons, ← String.toList_inj]
          cases are with
          | cons =>
              rw [split, found, lines_newline, rest, List.intercalate_cons_cons]
              simp

/-- A formatted text is empty or ends with exactly one newline. Its declarations are blocks of lines
with exactly one empty line between them; no line ends with a blank, no two empty lines follow each
other, and between the braces of a struct the first and the last line are not empty and every other
line begins with exactly one tab. -/
theorem lines_of_format {text out : String} (formatted : format text = .ok out) :
    (out = "" ∨ ∃ body, out = body ++ "\n" ∧ EndsSolid body) ∧
      ∃ decls blocks, parse out = .ok decls ∧ List.Forall₂ Block decls blocks ∧
        lines out = [""].intercalate blocks ++ [""] ∧ Tidy ([""].intercalate blocks) := by
  obtain ⟨decls, read, rfl⟩ := format_eq_ok.mp formatted
  have named := named_of_parse read
  obtain ⟨blocks, are, tidy, found⟩ := lines_print named
  refine ⟨?_, decls.map TypeDecl.spread, blocks, parse_print named, are, found, .intercalate tidy⟩
  by_cases none : decls = []
  · exact .inl (by rw [none, print])
  · have solid : ∀ text ∈ decls.map TypeDecl.text, EndsSolid text :=
      List.forall_mem_map.mpr fun decl member => TypeDecl.endsSolid (named decl member)
    exact .inr ⟨_, print_eq_intercalate none, intercalate_endsSolid (by simp [none]) solid⟩

theorem lines_of_format_unformatted :
    format unformatted = .ok formattedText ∧
      lines formattedText =
        ["type A struct \x7b", "\t*b.C \"\\\"\"", "\tD", "", "\tString map[E][]F `x\n y`", "\x7d",
          "", "type G struct\x7b\x7d", ""] ∧
      ∃ decls blocks, parse formattedText = .ok decls ∧ List.Forall₂ Block decls blocks ∧
        lines formattedText = [""].intercalate blocks ++ [""] ∧ Tidy ([""].intercalate blocks) := by
  have formatted : format unformatted = .ok formattedText := by decide +kernel
  exact ⟨formatted, by decide +kernel, (lines_of_format formatted).2⟩

end GoSchema.Source
