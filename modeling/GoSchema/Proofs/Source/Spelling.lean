import GoSchema.Source.Grammar

/-! # Spelling

Which tokens characters spell, whatever the places of the tokens are. Texts are put together from
the left: a piece of text is spelled in front of one that already spells its tokens, and only a
word asks what follows it.
-/

namespace GoSchema.Source

/-! ## One token -/

theorem Punct.char_of_ofChar? {c : Char} {mark : Punct} (known : Punct.ofChar? c = some mark) :
    mark.char = c := by
  have same := List.find?_some known
  exact beq_iff_eq.mp same

/-- What a character begins with those behind it: a token, and how many of them belong to it. -/
inductive Lexeme (c : Char) (cs : List Char) : Kind → Nat → Prop where
  | newline (here : c = '\n') : Lexeme c cs .newline 0
  | rawString {n} (here : c = '\x60') (closed : closingBacktick cs = some n) :
      Lexeme c cs (.str (String.ofList (c :: cs.take n))) n
  | string {n} (here : c = '"') (closed : closingQuote false cs = some n) :
      Lexeme c cs (.str (String.ofList (c :: cs.take n))) n
  | word (letter : isLetter c = true) :
      Lexeme c cs (.word (String.ofList (c :: cs.takeWhile isWordChar)))
        (cs.takeWhile isWordChar).length
  | number (digit : c.isDigit = true) :
      Lexeme c cs (.number (String.ofList (c :: cs.takeWhile fun d => isWordChar d || d == '.')))
        (cs.takeWhile fun d => isWordChar d || d == '.').length
  | punct {mark} (known : Punct.ofChar? c = some mark) : Lexeme c cs (.punct mark) 0

theorem lexeme_spec {c : Char} {cs : List Char} {k : Kind} {n : Nat}
    (here : lexeme c cs = .ok (k, n)) : Lexeme c cs k n := by
  unfold lexeme at here
  split at here
  · cases here
    exact .newline ‹_›
  split at here
  · cases here
  split at here
  · cases closed : closingBacktick cs with
    | none =>
        rw [closed] at here
        cases here
    | some m =>
        rw [closed] at here
        cases here
        exact .rawString ‹_› closed
  split at here
  · cases closed : closingQuote false cs with
    | none =>
        rw [closed] at here
        cases here
    | some m =>
        rw [closed] at here
        cases here
        exact .string ‹_› closed
  split at here
  · cases here
    exact .word ‹_›
  split at here
  · cases here
    exact .number ‹_›
  split at here
  · cases here
    exact .punct ‹_›
  · cases here

/-! ## Texts -/

/-- These characters spell tokens of these kinds. -/
inductive Spells : List Char → List Kind → Prop where
  | done : Spells [] [.eof]
  | gap {c cs ks} (blank : isGap c = true) (rest : Spells cs ks) : Spells (c :: cs) ks
  | token {c cs k n ks} (solid : isGap c = false) (here : lexeme c cs = .ok (k, n))
      (rest : Spells (cs.drop n) ks) : Spells (c :: cs) (k :: ks)

namespace Spells

theorem exists_tokens {cs : List Char} {ks : List Kind} (spelled : Spells cs ks) (l : Lexer) :
    ∃ ts, tokensFrom l cs = .ok ts ∧ ts.map (·.kind) = ks := by
  induction spelled generalizing l with
  | done => exact ⟨[⟨.eof, l.position⟩], by rw [tokensFrom], rfl⟩
  | @gap c cs ks blank rest ih =>
      obtain ⟨ts, read, kinds⟩ := ih (l.past 1)
      refine ⟨ts, ?_, kinds⟩
      rw [tokensFrom, if_pos blank]
      exact read
  | @token c cs k n ks solid here rest ih =>
      obtain ⟨ts, read, kinds⟩ := ih (l.pastToken c (cs.take n))
      refine ⟨⟨k, l.position⟩ :: ts, ?_, by rw [List.map_cons, kinds]⟩
      rw [tokensFrom, if_neg (by simp [solid])]
      simp only [here, read]

theorem of_tokens {l : Lexer} {cs : List Char} {ts : List Token}
    (read : tokensFrom l cs = .ok ts) : Spells cs (ts.map (·.kind)) := by
  induction l, cs using tokensFrom.induct generalizing ts with
  | case1 l =>
      rw [tokensFrom] at read
      cases read
      exact .done
  | case2 l c cs blank ih =>
      rw [tokensFrom, if_pos blank] at read
      exact .gap blank (ih read)
  | case3 l c cs solid cause refused =>
      rw [tokensFrom, if_neg solid] at read
      simp only [refused] at read
      cases read
  | case4 l c cs solid k n here e refused ih =>
      rw [tokensFrom, if_neg solid] at read
      simp only [here, refused] at read
      cases read
  | case5 l c cs solid k n here more accepted ih =>
      rw [tokensFrom, if_neg solid] at read
      simp only [here, accepted] at read
      cases read
      exact .token (by simpa using solid) here (ih accepted)

/-- A text spells one list of tokens at most. -/
theorem unique {cs : List Char} {ks ls : List Kind} (one : Spells cs ks) (other : Spells cs ls) :
    ks = ls := by
  obtain ⟨ts, read, rfl⟩ := one.exists_tokens .start
  obtain ⟨us, read', rfl⟩ := other.exists_tokens .start
  rw [read] at read'
  cases read'
  rfl

theorem lexeme_ne_eof {c : Char} {cs : List Char} {k : Kind} {n : Nat}
    (here : lexeme c cs = .ok (k, n)) : k ≠ .eof := by
  cases lexeme_spec here <;> exact nofun

/-- The end of a text is its last token, and no other one. -/
theorem exists_endless {cs : List Char} {ks : List Kind} (spelled : Spells cs ks) :
    ∃ front, ks = front ++ [.eof] ∧ .eof ∉ front := by
  induction spelled with
  | done => exact ⟨[], rfl, List.not_mem_nil⟩
  | gap _ _ ih => exact ih
  | @token c cs k n ks solid here rest ih =>
      obtain ⟨front, rfl, endless⟩ := ih
      refine ⟨k :: front, rfl, ?_⟩
      intro given
      rcases given with _ | ⟨_, later⟩
      · exact lexeme_ne_eof here rfl
      · exact endless later

end Spells

/-- A text is read as declarations when it spells tokens that are. -/
theorem parse_eq_ok {text : String} {decls : List TypeDecl} :
    parse text = .ok decls ↔
      ∃ ks, Spells text.toList ks ∧ declsOfKinds ks = .ok decls := by
  constructor
  · intro read
    unfold parse tokens at read
    split at read
    · cases read
    · rename_i ts scanned
      refine ⟨ts.map (·.kind), .of_tokens scanned, ?_⟩
      unfold declsOfTokens at read
      split at read
      · rename_i ds accepted
        cases read
        exact accepted
      · cases read
  · intro given
    obtain ⟨ks, spelled, accepted⟩ := given
    obtain ⟨ts, scanned, rfl⟩ := spelled.exists_tokens .start
    simp only [parse, tokens, scanned, declsOfTokens, accepted]

/-! ## Characters that begin a token -/

theorem ne_of_isLetter {c d : Char} (letter : isLetter c = true) (other : isLetter d = false) :
    c ≠ d := by
  rintro rfl
  rw [letter] at other
  cases other

theorem isGap_of_isLetter {c : Char} (letter : isLetter c = true) : isGap c = false := by
  have space : c ≠ ' ' := ne_of_isLetter letter (by decide +kernel)
  have tab : c ≠ '\t' := ne_of_isLetter letter (by decide +kernel)
  have carriage : c ≠ '\r' := ne_of_isLetter letter (by decide +kernel)
  simp [isGap, space, tab, carriage]

theorem isWordChar_of_isGap {c : Char} (gap : isGap c = true) : isWordChar c = false := by
  simp only [isGap, Bool.or_eq_true, beq_iff_eq] at gap
  rcases gap with (rfl | rfl) | rfl <;> decide +kernel

/-- Every punctuation mark is a token of its own, whatever follows. -/
theorem lexeme_punct (mark : Punct) (cs : List Char) :
    lexeme mark.char cs = .ok (.punct mark, 0) := by
  have letter : isLetter mark.char = false := by cases mark <;> decide +kernel
  have known : Punct.ofChar? mark.char = some mark := by cases mark <;> decide
  unfold lexeme
  rw [if_neg (by cases mark <;> decide), if_neg (by cases mark <;> simp [Punct.char]),
    if_neg (by cases mark <;> decide), if_neg (by cases mark <;> decide), if_neg (by simp [letter]),
    if_neg (by cases mark <;> decide)]
  simp only [known]

theorem closingBacktick_append {body : List Char} (cs : List Char) (plain : '\x60' ∉ body) :
    closingBacktick (body ++ '\x60' :: cs) = some (body.length + 1) := by
  induction body with
  | nil => simp [closingBacktick]
  | cons c body ih =>
      obtain ⟨here, later⟩ := not_or.mp (mt List.mem_cons.mpr plain)
      rw [List.cons_append, closingBacktick, if_neg (Ne.symm here), ih later]
      rfl

/-! ## Spelling a piece in front of a text -/

/-- A text does not go on a word that stands before it. -/
def EndsWord (cs : List Char) : Prop :=
  ∀ c, cs.head? = some c → isWordChar c = false

/-- Words that may be names: a letter, then letters and digits. -/
def IsWord (word : String) : Prop :=
  ∃ c cs, word.toList = c :: cs ∧ isLetter c = true ∧ ∀ d ∈ cs, isWordChar d = true

instance (word : String) : Decidable (IsWord word) :=
  match chars : word.toList with
  | [] => .isFalse (by
      intro given
      obtain ⟨c, cs, chars', -⟩ := given
      rw [chars] at chars'
      cases chars')
  | c :: cs =>
      decidable_of_iff (isLetter c = true ∧ cs.all isWordChar = true) (by
        constructor
        · intro given
          obtain ⟨letter, inside⟩ := given
          exact ⟨c, cs, chars, letter, List.all_eq_true.mp inside⟩
        · intro given
          obtain ⟨c', cs', chars', letter, inside⟩ := given
          rw [chars] at chars'
          cases chars'
          exact ⟨letter, List.all_eq_true.mpr inside⟩)

theorem IsWord.all {word : String} (valid : IsWord word) :
    ∀ c ∈ word.toList, isWordChar c = true := by
  obtain ⟨c, cs, chars, letter, inside⟩ := valid
  rw [chars]
  exact List.forall_mem_cons.mpr ⟨by rw [isWordChar, letter, Bool.true_or], inside⟩

theorem takeWhile_isWordChar {word cs : List Char} (inside : ∀ d ∈ word, isWordChar d = true)
    (ends : EndsWord cs) : (word ++ cs).takeWhile isWordChar = word := by
  rw [List.takeWhile_append_of_pos inside]
  cases cs with
  | nil => rw [List.takeWhile_nil, List.append_nil]
  | cons c cs => rw [List.takeWhile_cons_of_neg (by simp [ends c rfl]), List.append_nil]

/-- Characters in front of others spell these tokens in front of theirs. -/
def Adds (front cs : List Char) (ks : List Kind) : Prop :=
  ∀ ls, Spells (front ++ cs) ls ↔ ∃ ms, ls = ks ++ ms ∧ Spells cs ms

namespace Adds

variable {cs : List Char}

theorem nil : Adds [] cs [] := by
  intro ls
  constructor
  · intro spelled
    exact ⟨ls, rfl, spelled⟩
  · intro given
    obtain ⟨ms, rfl, spelled⟩ := given
    exact spelled

theorem append {front middle : List Char} {ks ls : List Kind} (first : Adds front (middle ++ cs) ks)
    (second : Adds middle cs ls) : Adds (front ++ middle) cs (ks ++ ls) := by
  intro ns
  rw [List.append_assoc, first]
  constructor
  · intro given
    obtain ⟨ms, rfl, spelled⟩ := given
    obtain ⟨left, rfl, rest⟩ := (second ms).mp spelled
    exact ⟨left, (List.append_assoc ks ls left).symm, rest⟩
  · intro given
    obtain ⟨ms, rfl, spelled⟩ := given
    exact ⟨ls ++ ms, List.append_assoc ks ls ms, (second _).mpr ⟨ms, rfl, spelled⟩⟩

theorem gap {c : Char} (blank : isGap c = true) : Adds [c] cs [] := by
  intro ls
  constructor
  · intro spelled
    cases spelled with
    | gap _ rest => exact ⟨ls, rfl, rest⟩
    | token solid =>
        rw [blank] at solid
        cases solid
  · intro given
    obtain ⟨ms, rfl, spelled⟩ := given
    exact .gap blank spelled

/-- A token takes the characters that its first one asks for. -/
theorem token {c : Char} {body : List Char} {k : Kind} (solid : isGap c = false)
    (here : lexeme c (body ++ cs) = .ok (k, body.length)) : Adds (c :: body) cs [k] := by
  intro ls
  constructor
  · intro spelled
    cases spelled with
    | gap blank =>
        rw [solid] at blank
        cases blank
    | token _ there rest =>
        cases here.symm.trans there
        have left : (body ++ cs).drop body.length = cs := List.drop_left
        exact ⟨_, rfl, left ▸ rest⟩
  · intro given
    obtain ⟨ms, rfl, spelled⟩ := given
    have left : (body ++ cs).drop body.length = cs := List.drop_left
    exact .token solid here (left.symm ▸ spelled)

theorem gaps {blanks : List Char} (blank : ∀ c ∈ blanks, isGap c = true) : Adds blanks cs [] := by
  induction blanks with
  | nil => exact .nil
  | cons c blanks ih =>
      obtain ⟨here, later⟩ := List.forall_mem_cons.mp blank
      exact (gap here).append (ih later)

theorem punct (mark : Punct) : Adds [mark.char] cs [.punct mark] :=
  .token (by cases mark <;> decide) (lexeme_punct mark cs)

theorem newline : Adds ['\n'] cs [.newline] :=
  .token (by decide) (by simp [lexeme])

theorem word {word : String} (valid : IsWord word) (ends : EndsWord cs) :
    Adds word.toList cs [.word word] := by
  obtain ⟨c, more, chars, letter, inside⟩ := valid
  have taken := takeWhile_isWordChar inside ends
  have text : String.ofList (c :: more) = word := by rw [← chars, String.ofList_toList]
  rw [chars]
  refine .token (isGap_of_isLetter letter) ?_
  unfold lexeme
  rw [if_neg (ne_of_isLetter letter (by decide +kernel)),
    if_neg (fun comment => ne_of_isLetter letter (by decide +kernel) comment.1),
    if_neg (ne_of_isLetter letter (by decide +kernel)),
    if_neg (ne_of_isLetter letter (by decide +kernel)), if_pos letter]
  simp only [taken, text]

end Adds

/-! ## Texts that are put together -/

/-- Before anything, a text spells these tokens. -/
def Leads (text : String) (kinds : List Kind) : Prop :=
  ∀ cs, Adds text.toList cs kinds

/-- Before anything that does not go on a word, a text spells these tokens. -/
def Writes (text : String) (kinds : List Kind) : Prop :=
  ∀ cs, EndsWord cs → Adds text.toList cs kinds

/-- A text that ends the word before it. -/
def Breaks (text : String) : Prop :=
  ∃ c cs, text.toList = c :: cs ∧ isWordChar c = false

theorem Breaks.endsWord {text : String} (breaks : Breaks text) (cs : List Char) :
    EndsWord (text.toList ++ cs) := by
  obtain ⟨c, more, chars, solid⟩ := breaks
  rintro d head
  rw [chars, List.cons_append, List.head?_cons] at head
  cases head
  exact solid

section

variable {s t : String} {ks ls : List Kind}

theorem Leads.nil : Leads "" [] :=
  fun _ => .nil

theorem Leads.writes (leads : Leads s ks) : Writes s ks :=
  fun cs _ => leads cs

theorem Leads.append (first : Leads s ks) (second : Leads t ls) : Leads (s ++ t) (ks ++ ls) := by
  intro cs
  rw [String.toList_append]
  exact (first _).append (second cs)

theorem Leads.append_writes (first : Leads s ks) (second : Writes t ls) :
    Writes (s ++ t) (ks ++ ls) := by
  intro cs ends
  rw [String.toList_append]
  exact (first _).append (second cs ends)

theorem Writes.append_leads (first : Writes s ks) (breaks : Breaks t) (second : Leads t ls) :
    Leads (s ++ t) (ks ++ ls) := by
  intro cs
  rw [String.toList_append]
  exact (first _ (breaks.endsWord cs)).append (second cs)

theorem Writes.spells (written : Writes s ks) : Spells s.toList (ks ++ [.eof]) := by
  have spelled := (written [] (by rintro c ⟨⟩) (ks ++ [.eof])).mpr ⟨[.eof], rfl, .done⟩
  rwa [List.append_nil] at spelled

end

theorem IsWord.writes {word : String} (valid : IsWord word) : Writes word [.word word] :=
  fun _ ends => .word valid ends

theorem leads_punct (mark : Punct) : Leads mark.char.toString [.punct mark] := by
  intro cs
  have chars : mark.char.toString.toList = [mark.char] := by simp
  rw [chars]
  exact .punct mark

theorem leads_newline : Leads "\n" [.newline] :=
  fun _ => .newline

theorem leads_tab : Leads "\t" [] :=
  fun _ => .gap (by decide)

/-- The raw string of characters without backticks. -/
def rawString (body : String) : String :=
  "`" ++ body ++ "`"

/-- A string literal with its quotes: it ends where it says. -/
def IsLiteral (literal : String) : Prop :=
  ∃ c cs, literal.toList = c :: cs ∧ isGap c = false ∧ isWordChar c = false ∧
    ∀ more, lexeme c (cs ++ more) = .ok (.str literal, cs.length)

theorem IsLiteral.leads {literal : String} (valid : IsLiteral literal) :
    Leads literal [.str literal] := by
  intro cs
  obtain ⟨c, body, chars, solid, -, here⟩ := valid
  rw [chars]
  exact .token solid (here cs)

theorem isLiteral_rawString {body : String} (plain : '\x60' ∉ body.toList) :
    IsLiteral (rawString body) := by
  have chars : (rawString body).toList = '\x60' :: (body.toList ++ ['\x60']) := by
    simp [rawString]
  refine ⟨_, _, chars, by decide, by decide +kernel, fun more => ?_⟩
  have closed : closingBacktick (body.toList ++ ['\x60'] ++ more) =
      some (body.toList ++ ['\x60']).length := by
    rw [List.append_assoc, List.cons_append, closingBacktick_append _ plain, List.length_append]
    rfl
  unfold lexeme
  rw [if_neg (by decide), if_neg (by simp), if_pos rfl]
  simp only [closed, List.take_left]
  rw [← chars, String.ofList_toList]

end GoSchema.Source
