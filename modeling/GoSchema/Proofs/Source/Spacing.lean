import GoSchema.Proofs.Source.Places
import GoSchema.Proofs.Source.ReadBack
import GoSchema.Proofs.Text.Letters

/-! # Blanks between tokens

A token ends where it does whether a blank follows or the next token. So more blanks between the
tokens of a text change neither the tokens nor what they are read as, but only their places.
-/

namespace GoSchema.Source

/-- Two texts with the same tokens: in front of each of them the second text has the blanks of the
first and maybe more. The last token is the end of the text. -/
inductive Widened : List Kind → List Char → List Char → Prop where
  | done : Widened [] [] []
  | token {k ks cs ds} {gap wider : List Char} (more : gap.Sublist wider)
      (blank : ∀ c ∈ wider, isGap c = true) (rest : Widened ks cs ds) :
      Widened (k :: ks) (gap ++ (k.text.toList ++ cs)) (wider ++ (k.text.toList ++ ds))

/-! ## Where a token ends -/

/-- The second text begins as the first one does, or with a blank, or it is empty. -/
def EndsAlike (cs ds : List Char) : Prop :=
  ∀ c, ds.head? = some c → isGap c = true ∨ cs.head? = some c

theorem takeWhile_endsAlike {p : Char → Bool} {body cs ds : List Char}
    (stops : ∀ c, isGap c = true → p c = false) (alike : EndsAlike cs ds)
    (taken : ((body ++ cs).takeWhile p).length = body.length) :
    (body ++ ds).takeWhile p = body := by
  have whole : (body ++ cs).takeWhile p = body := by
    have front := List.prefix_iff_eq_take.mp (List.takeWhile_prefix (l := body ++ cs) p)
    rw [taken, List.take_left] at front
    exact front
  have inside : ∀ c ∈ body, p c = true := by
    rw [← whole]
    exact List.all_eq_true.mp List.all_takeWhile
  rw [List.takeWhile_append_of_pos inside] at whole ⊢
  have none : cs.takeWhile p = [] := by simpa using whole
  cases ds with
  | nil => simp
  | cons d ds =>
      have last : p d = false := by
        rcases alike d rfl with blank | same
        · exact stops d blank
        · cases cs with
          | nil => cases same
          | cons c cs =>
              cases same
              simpa [List.takeWhile_cons] using none
      simp [last]

theorem length_le_of_lexeme {c : Char} {cs : List Char} {k : Kind} {n : Nat}
    (here : lexeme c cs = .ok (k, n)) : n ≤ cs.length := by
  cases lexeme_spec here with
  | newline | punct => exact Nat.zero_le _
  | rawString _ closed => exact (closingBacktick_take closed).1
  | string _ closed => exact (closingQuote_take closed).1
  | word | number => exact (List.takeWhile_sublist _).length_le

theorem isNumberChar_of_isGap {c : Char} (blank : isGap c = true) :
    (isWordChar c || c == '.') = false := by
  simp only [isGap, Bool.or_eq_true, beq_iff_eq] at blank
  rcases blank with (rfl | rfl) | rfl <;> decide +kernel

theorem lexeme_of_isLetter {c : Char} (letter : isLetter c = true) (cs : List Char) :
    lexeme c cs = .ok (.word (String.ofList (c :: cs.takeWhile isWordChar)),
      (cs.takeWhile isWordChar).length) := by
  have newline : c ≠ '\n' := ne_of_isLetter letter (by decide +kernel)
  have slash : c ≠ '/' := ne_of_isLetter letter (by decide +kernel)
  have backtick : c ≠ '\x60' := ne_of_isLetter letter (by decide +kernel)
  have quote : c ≠ '"' := ne_of_isLetter letter (by decide +kernel)
  simp [lexeme, newline, slash, backtick, quote, letter]

theorem lexeme_of_isDigit {c : Char} (digit : c.isDigit = true) (cs : List Char) :
    lexeme c cs =
      .ok (.number (String.ofList (c :: cs.takeWhile fun d => isWordChar d || d == '.')),
        (cs.takeWhile fun d => isWordChar d || d == '.').length) := by
  have ne {d : Char} (other : d.isDigit = false) : c ≠ d := by
    rintro rfl
    simp [digit] at other
  have letter : isLetter c = false := by
    by_contra letter
    have other := isDigit_of_isLetter (Bool.not_eq_false _ ▸ letter)
    have small : c.toNat ≤ 57 := (Char.isDigit_iff_toNat.mp digit).2
    simp only [isDigit, Text.isDecimalDigit, digit] at other
    split at other
    · cases other
    · omega
  have newline : c ≠ '\n' := ne (by decide)
  have slash : c ≠ '/' := ne (by decide)
  have backtick : c ≠ '\x60' := ne (by decide)
  have quote : c ≠ '"' := ne (by decide)
  simp [lexeme, newline, slash, backtick, quote, letter, digit]

/-- A token stays the same when a blank is put behind it. -/
theorem lexeme_endsAlike {c : Char} {body cs ds : List Char} {k : Kind}
    (alike : EndsAlike cs ds) (here : lexeme c (body ++ cs) = .ok (k, body.length)) :
    lexeme c (body ++ ds) = .ok (k, body.length) := by
  have refl : EndsAlike cs cs := fun _ same => .inr same
  generalize size : body.length = n at here
  cases lexeme_spec here with
  | newline newline =>
      obtain rfl : body = [] := List.eq_nil_of_length_eq_zero size
      simp [lexeme, newline]
  | rawString backtick closed =>
      subst size
      obtain ⟨-, again⟩ := closingBacktick_take closed
      rw [List.take_left] at again
      simp [lexeme, backtick, again]
  | string quote closed =>
      subst size
      obtain ⟨-, again⟩ := closingQuote_take closed
      rw [List.take_left] at again
      simp [lexeme, quote, again]
  | word letter =>
      have taken {ds : List Char} (alike : EndsAlike cs ds) :=
        takeWhile_endsAlike (fun _ => isWordChar_of_isGap) alike size.symm
      rw [lexeme_of_isLetter letter, taken alike, taken refl]
  | number digit =>
      have taken {ds : List Char} (alike : EndsAlike cs ds) :=
        takeWhile_endsAlike (fun _ => isNumberChar_of_isGap) alike size.symm
      rw [lexeme_of_isDigit digit, taken alike, taken refl]
  | punct known =>
      obtain rfl : body = [] := List.eq_nil_of_length_eq_zero size
      rw [← Punct.char_of_ofChar? known]
      exact lexeme_punct _ _

/-! ## Widened texts -/

/-- A token that is not the end of the text begins with a character of its own. -/
theorem Spells.exists_text {cs : List Char} {k : Kind} {ks : List Kind}
    (spelled : Spells cs (k :: ks)) :
    (k = .eof ∧ ks = []) ∨ ∃ c body, k.text.toList = c :: body ∧ isGap c = false := by
  generalize tokens : k :: ks = ls at spelled
  induction spelled with
  | done =>
      cases tokens
      exact .inl ⟨rfl, rfl⟩
  | gap _ _ ih => exact ih tokens
  | @token c cs _ n _ solid here =>
      cases tokens
      exact .inr ⟨c, cs.take n, by rw [lexeme_text here, String.toList_ofList], solid⟩

/-- A text that begins with the characters of its first token goes on with the others. -/
theorem Spells.of_text {c : Char} {body cs : List Char} {k : Kind} {ks : List Kind}
    (spelled : Spells (c :: (body ++ cs)) (k :: ks)) (text : k.text.toList = c :: body)
    (solid : isGap c = false) : lexeme c (body ++ cs) = .ok (k, body.length) ∧ Spells cs ks := by
  cases spelled with
  | gap blank =>
      rw [solid] at blank
      cases blank
  | @token _ _ _ n _ _ here rest =>
      have fits := length_le_of_lexeme here
      have taken : (body ++ cs).take n = body := by
        have same := lexeme_text here
        rw [← String.toList_inj, text, String.toList_ofList] at same
        exact (List.cons.inj same).2.symm
      obtain rfl : n = body.length := by
        rw [← taken, List.length_take_of_le fits]
      rw [List.drop_left] at rest
      exact ⟨here, rest⟩

theorem Widened.gap {ks : List Kind} {cs ds : List Char} (widened : Widened ks cs ds)
    (some : ks ≠ []) {c : Char} (blank : isGap c = true) : Widened ks (c :: cs) (c :: ds) := by
  cases widened with
  | done => exact absurd rfl some
  | token more blanks rest =>
      exact .token (more.cons_cons c) (List.forall_mem_cons.mpr ⟨blank, blanks⟩) rest

/-- Every text consists of its tokens with blanks in front of them. -/
theorem Spells.widened {cs : List Char} {ks : List Kind} (spelled : Spells cs ks) :
    Widened ks cs cs := by
  have touching {k : Kind} {ks : List Kind} {cs : List Char} (rest : Widened ks cs cs) :
      Widened (k :: ks) (k.text.toList ++ cs) (k.text.toList ++ cs) :=
    .token (List.Sublist.refl []) (List.forall_mem_nil _) rest
  induction spelled with
  | done => exact touching .done
  | gap blank rest ih =>
      obtain ⟨front, rfl, -⟩ := rest.exists_endless
      exact ih.gap (by simp) blank
  | @token c cs k n ks solid here rest ih =>
      have whole := touching (k := k) ih
      rwa [lexeme_text here, String.toList_ofList, List.cons_append, List.take_append_drop] at whole

section

variable {k : Kind} {ks : List Kind} {gap cs ds : List Char}

/-- After the blanks in front of it the first token of a text is the end or is taken off it. -/
theorem Spells.token_cases (blank : ∀ c ∈ gap, isGap c = true)
    (spelled : Spells (gap ++ (k.text.toList ++ cs)) (k :: ks)) :
    (k = .eof ∧ ks = []) ∨ ∃ c body, k.text.toList = c :: body ∧ isGap c = false ∧
      lexeme c (body ++ cs) = .ok (k, body.length) ∧ Spells cs ks := by
  rcases spelled.exists_text with ending | ⟨c, body, text, solid⟩
  · exact .inl ending
  · obtain ⟨_, rfl, rest⟩ := (Adds.gaps blank _).mp spelled
    rw [text, List.cons_append] at rest
    obtain ⟨here, others⟩ := rest.of_text text solid
    exact .inr ⟨c, body, text, solid, here, others⟩

theorem Widened.endsAlike (widened : Widened ks cs ds) (spelled : Spells cs ks) :
    EndsAlike cs ds := by
  cases widened with
  | done => cases spelled
  | @token k ks cs ds gap wider more blank rest =>
      rintro d head
      cases wider with
      | cons w wider =>
          cases head
          exact .inl (blank d List.mem_cons_self)
      | nil =>
          obtain rfl := List.eq_nil_of_sublist_nil more
          rcases spelled.token_cases blank with ⟨rfl, rfl⟩ | ⟨c, body, text, -⟩
          · cases rest
            cases head
          · rw [text] at head ⊢
            exact .inr head

/-- More blanks in front of tokens do not change them. -/
theorem Widened.spells (widened : Widened ks cs ds) (spelled : Spells cs ks) : Spells ds ks := by
  induction widened with
  | done => exact spelled
  | @token k ks cs ds gap wider more blank rest ih =>
      refine (Adds.gaps blank _).mpr ⟨k :: ks, rfl, ?_⟩
      rcases spelled.token_cases (fun c member => blank c (more.subset member)) with
        ⟨rfl, rfl⟩ | ⟨c, body, text, solid, here, others⟩
      · cases rest
        exact .done
      · have following := lexeme_endsAlike (rest.endsAlike others) here
        have first : Adds (c :: body) ds [k] := .token solid following
        rw [text]
        exact (first _).mpr ⟨ks, rfl, ih others⟩

end

/-! ## What does not depend on blanks -/

/-- Texts with the same tokens are formatted alike, or not at all for the same cause. -/
theorem format_of_kinds {text other : String} {ts us : List Token} (read : tokens text = .ok ts)
    (read' : tokens other = .ok us) (same : us.map (·.kind) = ts.map (·.kind)) :
    (format other).mapError Error.cause = (format text).mapError Error.cause := by
  simp only [format, parse, read, read', declsOfTokens, same]
  cases declsOfKinds (ts.map (·.kind)) <;> rfl

/-- Blanks between tokens mean nothing. A text that can be scanned consists of its tokens with
blanks in front of them, and with more of these it has the same tokens and is formatted alike, or
refused for the same cause. -/
theorem tokens_widened {text : String} {ts : List Token} (read : tokens text = .ok ts) :
    Widened (ts.map (·.kind)) text.toList text.toList ∧
      ∀ wider : String, Widened (ts.map (·.kind)) text.toList wider.toList →
        (∃ us, tokens wider = .ok us ∧ us.map (·.kind) = ts.map (·.kind)) ∧
          (format wider).mapError Error.cause = (format text).mapError Error.cause := by
  have spelled : Spells text.toList (ts.map (·.kind)) := .of_tokens read
  refine ⟨spelled.widened, fun wider widened => ?_⟩
  obtain ⟨us, read', same⟩ := (widened.spells spelled).exists_tokens .start
  exact ⟨⟨us, read', same⟩, format_of_kinds read read' same⟩

/-- Tokens that touch each other, and blanks in a literal. -/
def touching : String :=
  "type T struct\x7b*p.B`\t `\x7d"

def apart : String :=
  "\ttype T\r struct \x7b * p\t. B `\t ` \x7d \t"

theorem tokens_widened_touching :
    (format touching).mapError Error.cause = .ok "type T struct \x7b\n\t*p.B `\t `\n\x7d\n" ∧
      (format apart).mapError Error.cause = .ok "type T struct \x7b\n\t*p.B `\t `\n\x7d\n" ∧
      ∃ us, tokens apart = .ok us ∧
        us.map (·.kind) = [.word "type", .word "T", .word "struct", .punct .leftBrace, .punct .star,
          .word "p", .punct .dot, .word "B", .str "`\t `", .punct .rightBrace, .eof] := by
  have read : tokens touching = .ok [⟨.word "type", ⟨1, 1⟩⟩, ⟨.word "T", ⟨1, 6⟩⟩,
      ⟨.word "struct", ⟨1, 8⟩⟩, ⟨.punct .leftBrace, ⟨1, 14⟩⟩, ⟨.punct .star, ⟨1, 15⟩⟩,
      ⟨.word "p", ⟨1, 16⟩⟩, ⟨.punct .dot, ⟨1, 17⟩⟩, ⟨.word "B", ⟨1, 18⟩⟩, ⟨.str "`\t `", ⟨1, 19⟩⟩,
      ⟨.punct .rightBrace, ⟨1, 23⟩⟩, ⟨.eof, ⟨1, 24⟩⟩] := by decide +kernel
  have formatted : (format touching).mapError Error.cause =
      .ok "type T struct \x7b\n\t*p.B `\t `\n\x7d\n" := by decide +kernel
  have before : touching.toList = [] ++ ("type".toList ++ ([' '] ++ ("T".toList ++ ([' '] ++
      ("struct".toList ++ ([] ++ ("\x7b".toList ++ ([] ++ ("*".toList ++ ([] ++ ("p".toList ++
      ([] ++ (".".toList ++ ([] ++ ("B".toList ++ ([] ++ ("`\t `".toList ++ ([] ++
      ("\x7d".toList ++ ([] ++ ("".toList ++ []))))))))))))))))))))) := by decide +kernel
  have after : apart.toList = ['\t'] ++ ("type".toList ++ ([' '] ++ ("T".toList ++ (['\r', ' '] ++
      ("struct".toList ++ ([' '] ++ ("\x7b".toList ++ ([' '] ++ ("*".toList ++ ([' '] ++
      ("p".toList ++ (['\t'] ++ (".".toList ++ ([' '] ++ ("B".toList ++ ([' '] ++
      ("`\t `".toList ++ ([' '] ++ ("\x7d".toList ++ ([' ', '\t'] ++
      ("".toList ++ []))))))))))))))))))))) := by decide +kernel
  have widened : Widened [.word "type", .word "T", .word "struct", .punct .leftBrace, .punct .star,
      .word "p", .punct .dot, .word "B", .str "`\t `", .punct .rightBrace, .eof]
      touching.toList apart.toList := by
    rw [before, after]
    repeat' first | exact .done | refine .token (by decide) (by simp [isGap]) ?_
  obtain ⟨scanned, unchanged⟩ := (tokens_widened read).2 apart widened
  exact ⟨formatted, unchanged.trans formatted, scanned⟩

end GoSchema.Source
