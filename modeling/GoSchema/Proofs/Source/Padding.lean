import GoSchema.Proofs.Source.Confinement
import GoSchema.Proofs.Source.Printing

/-! # Names with blanks around them

A text without quotes, marks and newlines spells words and numbers only. Before a type it makes a
field when it is one name with blanks around it, or when it is blank and the type has a name.
-/

namespace GoSchema.Source

/-- The characters that end a line, begin a literal or are marks. -/
def delimiters : List Char :=
  '\n' :: '\x60' :: '"' :: Punct.all.map Punct.char

/-- A word with nothing but gaps around it. -/
def Padded (word : String) (cs : List Char) : Prop :=
  ∃ before after, (∀ c ∈ before, isGap c = true) ∧ (∀ c ∈ after, isGap c = true) ∧
    cs = before ++ word.toList ++ after

theorem delimiter_of_reaching {c : Char} (reaches : c ∈ reaching) : c ∈ delimiters := by
  have all : (reaching.all fun c => decide (c ∈ delimiters)) = true := by decide
  exact of_decide_eq_true (List.all_eq_true.mp all c reaches)

/-! ## The tokens of such a text -/

theorem lexeme_undelimited {c : Char} {cs : List Char} {k : Kind} {n : Nat}
    (plain : c ∉ delimiters) (here : lexeme c cs = .ok (k, n)) :
    (isLetter c = true ∧ k = .word (String.ofList (c :: cs.takeWhile isWordChar)) ∧
      n = (cs.takeWhile isWordChar).length) ∨ ∃ text, k = .number text := by
  cases lexeme_spec here with
  | newline newline => exact absurd (by rw [newline]; decide) plain
  | rawString backtick => exact absurd (by rw [backtick]; decide) plain
  | string quote => exact absurd (by rw [quote]; decide) plain
  | word letter => exact .inl ⟨letter, rfl, rfl⟩
  | number digit => exact .inr ⟨_, rfl⟩
  | @punct mark known =>
      refine absurd ?_ plain
      have all : ∀ mark : Punct, mark.char ∈ delimiters := by
        intro mark
        cases mark <;> decide
      rw [← Punct.char_of_ofChar? known]
      exact all mark

def Kind.Runs : Kind → Prop
  | .word _ | .number _ => True
  | .str _ | .punct _ | .newline | .eof => False

theorem Kind.Runs.solid {k : Kind} (run : k.Runs) : k ≠ .newline ∧ k ≠ .punct .semicolon := by
  constructor
  · rintro rfl
    exact run
  · rintro rfl
    exact run

theorem Spells.runs {cs : List Char} {ks : List Kind} (spelled : Spells cs (ks ++ [.eof]))
    (plain : ∀ c ∈ cs, c ∉ delimiters) : ∀ k ∈ ks, k.Runs := by
  generalize tokens : ks ++ [.eof] = ls at spelled
  induction spelled generalizing ks with
  | done =>
      obtain rfl : ks = [] := by simpa using tokens
      exact List.forall_mem_nil _
  | gap blank rest ih => exact ih (List.forall_mem_cons.mp plain).2 tokens
  | @token c cs k n ls solid here rest ih =>
      obtain ⟨first, later⟩ := List.forall_mem_cons.mp plain
      cases ks with
      | nil =>
          obtain ⟨rfl, -⟩ := List.cons.inj tokens
          exact absurd rfl (lexeme_ne_eof here)
      | cons k' ks =>
          obtain ⟨rfl, others⟩ := List.cons.inj tokens
          refine List.forall_mem_cons.mpr ⟨?_, ih (fun d member => ?_) others⟩
          · rcases lexeme_undelimited first here with ⟨-, rfl, -⟩ | ⟨text, rfl⟩ <;> trivial
          · exact later d (List.mem_of_mem_drop member)

theorem Spells.blank {cs : List Char} (spelled : Spells cs [.eof]) : ∀ c ∈ cs, isGap c = true := by
  generalize tokens : [Kind.eof] = ks at spelled
  induction spelled with
  | done => exact List.forall_mem_nil _
  | gap blank rest ih => exact List.forall_mem_cons.mpr ⟨blank, ih tokens⟩
  | token solid here rest ih =>
      cases tokens
      exact absurd rfl (lexeme_ne_eof here)

/-- Text that spells one word is this word and gaps. -/
theorem Spells.padded {cs : List Char} {word : String} (spelled : Spells cs [.word word, .eof])
    (plain : ∀ c ∈ cs, c ∉ delimiters) : IsWord word ∧ Padded word cs := by
  generalize tokens : [Kind.word word, .eof] = ks at spelled
  induction spelled with
  | done => cases tokens
  | @gap c cs ks blank rest ih =>
      obtain ⟨valid, before, after, blanks, others, rfl⟩ :=
        ih (List.forall_mem_cons.mp plain).2 tokens
      exact ⟨valid, c :: before, after, List.forall_mem_cons.mpr ⟨blank, blanks⟩, others, rfl⟩
  | @token c cs k n ks solid here rest ih =>
      cases tokens
      rcases lexeme_undelimited (List.forall_mem_cons.mp plain).1 here with
        ⟨letter, same, rfl⟩ | ⟨text, number⟩
      · cases same
        have inside : ∀ d ∈ cs.takeWhile isWordChar, isWordChar d = true :=
          List.all_eq_true.mp List.all_takeWhile
        have all := List.take_append_drop (cs.takeWhile isWordChar).length cs
        rw [← List.prefix_iff_eq_take.mp (List.takeWhile_prefix isWordChar)] at all
        refine ⟨⟨c, _, String.toList_ofList, letter, inside⟩, [], _, List.forall_mem_nil _,
          rest.blank, ?_⟩
        rw [String.toList_ofList, List.nil_append, List.cons_append, all]
      · cases number

/-- The gap that ends a name is none of its own. -/
theorem Padded.of_space {cs : List Char} {word : String} (valid : IsWord word)
    (padded : Padded word (cs ++ [' '])) : Padded word cs := by
  obtain ⟨before, after, blank, blank', chars⟩ := padded
  rcases List.eq_nil_or_concat' after with rfl | ⟨left, last, rfl⟩
  · exfalso
    have filled : word.toList ≠ [] := mt String.toList_eq_nil_iff.mp valid.ne_empty
    have ends := congrArg List.getLast? chars
    rw [List.append_nil, List.getLast?_concat, List.getLast?_append_of_ne_nil _ filled] at ends
    have solid := valid.all ' ' (List.mem_of_getLast? ends.symm)
    rw [isWordChar_of_isGap (by decide)] at solid
    cases solid
  · rw [← List.append_assoc] at chars
    obtain ⟨same, -⟩ := List.append_inj' chars rfl
    exact ⟨before, left, blank, fun c member => blank' c (List.mem_append_left _ member), same⟩

theorem Padded.leads {name word : String} (valid : IsWord word)
    (padded : Padded word name.toList) : Leads (name ++ " ") [.word word] := by
  obtain ⟨before, after, blank, blank', chars⟩ := padded
  intro cs
  have space : ∀ c ∈ after ++ [' '], isGap c = true :=
    List.forall_mem_append.mpr ⟨blank', List.forall_mem_singleton.mpr (by decide)⟩
  have ends : EndsWord (after ++ [' '] ++ cs) := by
    intro c head
    rw [List.head?_append_of_ne_nil _ (by simp)] at head
    exact isWordChar_of_isGap (space c (List.mem_of_head? head))
  have text : (name ++ " ").toList = before ++ (word.toList ++ (after ++ [' '])) := by
    rw [String.toList_append, chars]
    simp
  rw [text]
  exact (Adds.gaps blank).append ((Adds.word valid ends).append (.gaps space))

theorem leads_blank {name : String} (blank : ∀ c ∈ name.toList, isGap c = true) :
    Leads (name ++ " ") [] := by
  intro cs
  rw [String.toList_append]
  exact .gaps (List.forall_mem_append.mpr ⟨blank, List.forall_mem_singleton.mpr (by decide)⟩)

/-! ## Before a type -/

/-- What a type begins with, or a word, or a number. -/
inductive BeginsType : List Kind → Prop where
  | run {k ks} (run : k.Runs) : BeginsType (k :: ks)
  | star {ks} : BeginsType (.punct .star :: ks)
  | slice {ks} : BeginsType (.punct .leftBracket :: .punct .rightBracket :: ks)

theorem DerivesType.begins {ks : List Kind} {t : TypeExpr} (derives : DerivesType ks t)
    (rest : List Kind) : BeginsType (ks ++ rest) := by
  cases derives with
  | named name =>
      obtain ⟨word, more, rfl, -⟩ := name.exists_word
      exact .run trivial
  | pointer => exact .star
  | slice => exact .slice
  | map => exact .run trivial
  | interface => exact .run trivial

theorem not_begins_tagKinds (tag : Option String) : ¬BeginsType (tagKinds tag) := by
  intro begins
  cases tag with
  | none => cases begins
  | some literal =>
      cases begins with
      | run run => exact run

/-- Two words or numbers before a type are too many. -/
theorem not_isField {k l : Kind} {ks : List Kind} (one : k.Runs) (other : l.Runs)
    (begins : BeginsType ks) : ¬IsField (k :: l :: ks) := by
  intro is
  obtain ⟨blankBefore, field, derives⟩ := is
  generalize text : k :: l :: ks = all at derives
  cases derives with
  | embedded type tag =>
      cases type with
      | plain =>
          cases tag with
          | none => cases text
          | some literal =>
              cases text
              exact other
      | qualified =>
          cases text
          exact other
  | embeddedPointer =>
      obtain ⟨rfl, -⟩ := List.cons.inj text
      exact one
  | named free type tag =>
      cases type with
      | named type =>
          cases type with
          | plain =>
              cases text
              exact not_begins_tagKinds tag begins
          | qualified =>
              cases text
              cases begins with
              | run run => exact run
      | pointer =>
          cases text
          exact other
      | slice =>
          cases text
          exact other
      | @map ks' _ ls _ key value =>
          have inner := key.begins (.punct .rightBracket :: (ls ++ tagKinds tag))
          rw [List.cons_append, List.cons_append, List.append_assoc, List.cons_append] at text
          generalize ks' ++ .punct .rightBracket :: (ls ++ tagKinds tag) = after at text inner
          cases text
          cases begins with
          | run run => exact run
          | slice =>
              cases inner with
              | run run => exact run
      | interface =>
          cases text
          cases begins with
          | run run => exact run

/-- A field begins with a name or a star. -/
theorem IsField.head {k : Kind} {ks : List Kind} (is : IsField (k :: ks)) :
    (∃ name, k = .word name ∧ isKeyword name = false) ∨ k = .punct .star := by
  obtain ⟨blankBefore, field, derives⟩ := is
  generalize text : k :: ks = all at derives
  cases derives with
  | embedded type tag =>
      obtain ⟨name, more, rfl, free⟩ := type.exists_word
      cases text
      exact .inl ⟨name, rfl, free⟩
  | embeddedPointer =>
      cases text
      exact .inr rfl
  | named free =>
      cases text
      exact .inl ⟨_, rfl, free⟩

/-- Without its star an embedded field is still one. -/
theorem IsField.of_star {ks : List Kind} (is : IsField (.punct .star :: ks)) : IsField ks := by
  obtain ⟨blankBefore, field, derives⟩ := is
  generalize text : Kind.punct .star :: ks = all at derives
  cases derives with
  | embedded type tag =>
      obtain ⟨name, more, rfl, -⟩ := type.exists_word
      cases text
  | embeddedPointer type tag =>
      cases text
      exact ⟨blankBefore, _, .embedded type tag⟩
  | named => cases text

/-- Words and numbers before a type make a field when they are one name, or when there are none
and the type does on its own. -/
theorem isField_runs_iff {ks ts : List Kind} {t : TypeExpr} (tag : Option String)
    (runs : ∀ k ∈ ks, k.Runs) (type : DerivesType ts t) :
    IsField (ks ++ (ts ++ tagKinds tag)) ↔
      (∃ name, ks = [.word name] ∧ isKeyword name = false) ∨
        ks = [] ∧ IsField (ts ++ tagKinds tag) := by
  constructor
  · intro is
    match ks with
    | [] => exact .inr ⟨rfl, is⟩
    | [k] =>
        rcases is.head with ⟨name, rfl, free⟩ | rfl
        · exact .inl ⟨name, rfl, free⟩
        · exact (runs _ List.mem_cons_self).elim
    | k :: l :: ks =>
        obtain ⟨one, others⟩ := List.forall_mem_cons.mp runs
        obtain ⟨other, more⟩ := List.forall_mem_cons.mp others
        refine absurd is (not_isField one other ?_)
        cases ks with
        | nil => exact type.begins _
        | cons m ks => exact .run (more m List.mem_cons_self)
  · intro is
    rcases is with ⟨name, rfl, free⟩ | ⟨rfl, is⟩
    · exact ⟨false, _, .named free type tag⟩
    · exact is

section

variable {name tail : String} {t : TypeExpr} {tag : Option String}

theorem TypeExpr.solid_kinds (t : TypeExpr) :
    ∀ k ∈ t.kinds, k ≠ .newline ∧ k ≠ .punct .semicolon := by
  induction t with
  | name package last => cases package <;> simp [kinds]
  | pointer target ih => simpa [kinds] using ih
  | slice element ih => simpa [kinds] using ih
  | map key value ihKey ihValue => grind [kinds]
  | interface => simp [kinds]

/-- A line of a name, a type and perhaps a tag is a list of fields when the name is one with blanks
around it, or when the name is blank and the type makes a field on its own. -/
theorem isListOf_line (plain : ∀ c ∈ name.toList, c ∉ delimiters) (named : t.Named)
    (written : Writes tail (t.kinds ++ tagKinds tag)) :
    IsListOf IsField (name ++ " " ++ tail) ↔ ∃ word, Padded word name.toList ∧
      (IsName word ∨ word = "" ∧ IsField (t.kinds ++ tagKinds tag)) := by
  have space : (name ++ " ").toList = name.toList ++ [' '] := String.toList_append
  constructor
  · intro list
    obtain ⟨ms, spelled, separated⟩ := list
    rcases scan_name fun c member => mt delimiter_of_reaching (plain c member) with
      ⟨ks, -, adds⟩ | stuck
    · have front : Leads (name ++ " ") ks := by
        intro cs
        rw [space]
        exact adds cs
      obtain rfl := List.append_cancel_right
        (spelled.unique (front.append_writes written).spells)
      have alone := front.writes.spells
      rw [space] at alone
      have plain' : ∀ c ∈ name.toList ++ [' '], c ∉ delimiters :=
        List.forall_mem_append.mpr ⟨plain, List.forall_mem_singleton.mpr (by decide)⟩
      have runs := alone.runs plain'
      have is : IsField (ks ++ (t.kinds ++ tagKinds tag)) := by
        apply separated.whole
        · obtain ⟨k, more, begins, -⟩ := (t.derives named).exists_head
          simp [begins]
        · refine List.forall_mem_append.mpr ⟨fun k member => (runs k member).solid, ?_⟩
          exact List.forall_mem_append.mpr ⟨t.solid_kinds, by cases tag <;> simp [tagKinds]⟩
      rcases (isField_runs_iff tag runs (t.derives named)).mp is with ⟨word, rfl, free⟩ | ⟨rfl, is⟩
      · obtain ⟨valid, padded⟩ := alone.padded plain'
        exact ⟨word, padded.of_space valid, .inl ⟨valid, free⟩⟩
      · have blank := (List.forall_mem_append.mp alone.blank).1
        refine ⟨"", ⟨name.toList, [], blank, List.forall_mem_nil _, ?_⟩, .inr ⟨rfl, is⟩⟩
        simp
    · rw [String.toList_append, space, List.append_assoc] at spelled
      exact absurd spelled (stuck _ _)
  · intro fits
    obtain ⟨word, padded, ⟨valid, free⟩ | ⟨rfl, is⟩⟩ := fits
    · have all := (padded.leads valid).append_writes written
      exact ⟨_, all.spells, .alone ⟨false, _, .named free (t.derives named) tag⟩⟩
    · obtain ⟨before, after, blank, blank', chars⟩ := padded
      have gaps : ∀ c ∈ name.toList, isGap c = true := by
        rw [chars, String.toList_empty, List.append_nil]
        exact List.forall_mem_append.mpr ⟨blank, blank'⟩
      have all := (leads_blank gaps).append_writes written
      exact ⟨_, all.spells, .alone is⟩

end

end GoSchema.Source
