import GoSchema.Proofs.Source.Refusal
import GoSchema.Proofs.Source.Spelling
import GoSchema.Source.Format
import Mathlib.Data.List.DropRight

/-! # Where things stand in a text

Scanning loses nothing: a text consists of its tokens and the blanks between them, and each token
is placed where it begins. Errors stand at such a place too, or where scanning had to stop.
-/

namespace GoSchema.Source

/-! ## Places -/

namespace Position

/-- The place behind the first part of a text: its line is the number of newlines so far and one
more, its column the number of bytes since the last newline and one more. -/
def behind (before : String) : Position :=
  ⟨1 + before.toList.count '\n',
    1 + (String.ofList (before.toList.rtakeWhile (· ≠ '\n'))).utf8ByteSize⟩

/-- An earlier line, or an earlier column of the same line. -/
def Precedes (p q : Position) : Prop :=
  p.line < q.line ∨ p.line = q.line ∧ p.column < q.column

theorem Precedes.trans {p q r : Position} (first : p.Precedes q) (second : q.Precedes r) :
    p.Precedes r := by
  simp only [Precedes] at *
  omega

theorem Precedes.ne {p q : Position} (before : p.Precedes q) : p ≠ q := by
  rintro rfl
  simp only [Precedes] at before
  omega

theorem precedes_push (before : String) (c : Char) :
    (behind before).Precedes (behind (before.push c)) := by
  have wide := c.utf8Size_pos
  by_cases newline : c = '\n'
  · simp [Precedes, behind, newline]
  · simp [Precedes, behind, newline, wide]

theorem behind_precedes (before : String) {text : String} (some : text ≠ "") :
    (behind before).Precedes (behind (before ++ text)) := by
  induction text using String.push_induction with
  | empty => exact absurd rfl some
  | push text c ih =>
      rw [← String.append_singleton, ← String.append_assoc, String.append_singleton]
      by_cases first : text = ""
      · rw [first, String.append_empty]
        exact precedes_push before c
      · exact (ih first).trans (precedes_push (before ++ text) c)

end Position

/-! ## Lexers -/

theorem ofList_cons (c : Char) (cs : List Char) :
    String.ofList (c :: cs) = String.singleton c ++ String.ofList cs := by
  rw [← String.toList_inj]
  simp

theorem lexeme_text {c : Char} {cs : List Char} {k : Kind} {n : Nat}
    (here : lexeme c cs = .ok (k, n)) : k.text = String.ofList (c :: cs.take n) := by
  have run (p : Char → Bool) : cs.take (cs.takeWhile p).length = cs.takeWhile p :=
    (List.prefix_iff_eq_take.mp (List.takeWhile_prefix p)).symm
  cases lexeme_spec here with
  | newline newline => rw [newline]; rfl
  | rawString | string => rfl
  | word | number => rw [run]; rfl
  | punct known =>
      rw [← Punct.char_of_ofChar? known]
      rfl

theorem utf8ByteSize_ofList (cs : List Char) : (String.ofList cs).utf8ByteSize = byteCount cs := by
  induction cs with
  | nil => rfl
  | cons c cs ih => simp [ih, byteCount]

theorem byteCount_append (cs ds : List Char) :
    byteCount (cs ++ ds) = byteCount cs + byteCount ds := by
  induction cs with
  | nil => simp [byteCount]
  | cons c cs ih => simp [byteCount, ih, Nat.add_assoc]

/-- The line that is still open at the end of some characters. -/
def openLine (cs : List Char) : List Char :=
  cs.rtakeWhile (· ≠ '\n')

theorem openLine_append_of_flat (cs : List Char) {more : List Char} (flat : '\n' ∉ more) :
    openLine (cs ++ more) = openLine cs ++ more := by
  induction more using List.reverseRecOn with
  | nil => simp
  | append_singleton more c ih =>
      obtain ⟨earlier, other⟩ : '\n' ∉ more ∧ c ≠ '\n' := by
        simpa [eq_comm, not_or] using flat
      have longer : openLine (cs ++ more ++ [c]) = openLine (cs ++ more) ++ [c] :=
        List.rtakeWhile_concat_pos _ _ c (decide_eq_true other)
      rw [← List.append_assoc, longer, ih earlier, List.append_assoc]

theorem openLine_append_newline (cs : List Char) {more : List Char} (flat : '\n' ∉ more) :
    openLine (cs ++ '\n' :: more) = more := by
  have closed : openLine (cs ++ ['\n']) = [] := List.rtakeWhile_concat_neg _ _ _ (by decide)
  rw [List.append_cons, openLine_append_of_flat _ flat, closed, List.nil_append]

theorem lastNewline?_eq_none {cs : List Char} (flat : lastNewline? cs = none) : '\n' ∉ cs := by
  induction cs with
  | nil => exact List.not_mem_nil
  | cons c cs ih =>
      rw [lastNewline?] at flat
      split at flat
      · cases flat
      · rename_i later
        have other : c ≠ '\n' := by simpa using flat
        exact List.not_mem_cons_of_ne_of_not_mem other.symm (ih later)

/-- The last newline cuts some characters in two. -/
theorem lastNewline?_eq_some {cs : List Char} {i : Nat} (found : lastNewline? cs = some i) :
    ∃ front back, cs = front ++ '\n' :: back ∧ byteCount front = i ∧ '\n' ∉ back := by
  induction cs generalizing i with
  | nil => cases found
  | cons c cs ih =>
      rw [lastNewline?] at found
      split at found
      · rename_i j later
        cases found
        obtain ⟨front, back, rfl, rfl, flat⟩ := ih later
        exact ⟨c :: front, back, rfl, rfl, flat⟩
      · rename_i later
        obtain ⟨rfl, rfl⟩ : c = '\n' ∧ 0 = i := by simpa using found
        exact ⟨[], cs, rfl, rfl, lastNewline?_eq_none later⟩

theorem flat_of_closingQuote {escaped : Bool} {cs : List Char} {n : Nat}
    (closed : closingQuote escaped cs = some n) : '\n' ∉ cs.take n := by
  induction escaped, cs using closingQuote.induct generalizing n with
  | case1 => cases closed
  | case2 => cases closed
  | case3 c cs sameLine ih =>
      rw [closingQuote, if_neg sameLine, if_pos rfl] at closed
      obtain ⟨m, found, rfl⟩ := Option.map_eq_some_iff.mp closed
      simp [sameLine, Ne.symm, ih found]
  | case4 escaped cs plain sameLine ih =>
      rw [closingQuote, if_neg sameLine, if_neg plain, if_pos rfl] at closed
      obtain ⟨m, found, rfl⟩ := Option.map_eq_some_iff.mp closed
      simp [ih found]
  | case5 escaped cs plain =>
      rw [closingQuote, if_neg (by decide), if_neg plain, if_neg (by decide), if_pos rfl] at closed
      cases closed
      simp
  | case6 escaped c cs sameLine plain noBackslash noQuote ih =>
      rw [closingQuote, if_neg sameLine, if_neg plain, if_neg noBackslash, if_neg noQuote] at closed
      obtain ⟨m, found, rfl⟩ := Option.map_eq_some_iff.mp closed
      simp [Ne.symm sameLine, ih found]

/-- Only a newline and a raw string can hold a newline. -/
theorem flat_of_lexeme {c : Char} {cs : List Char} {k : Kind} {n : Nat}
    (here : lexeme c cs = .ok (k, n)) (sameLine : c ≠ '\n') (quoted : c ≠ '\x60') :
    '\n' ∉ c :: cs.take n := by
  have run (p : Char → Bool) (refused : p '\n' = false) :
      '\n' ∉ cs.take (cs.takeWhile p).length := by
    intro member
    rw [← List.prefix_iff_eq_take.mp (List.takeWhile_prefix p)] at member
    have kept := List.mem_takeWhile_imp member
    rw [refused] at kept
    cases kept
  refine List.not_mem_cons_of_ne_of_not_mem sameLine.symm ?_
  cases lexeme_spec here with
  | newline newline => exact absurd newline sameLine
  | rawString backtick => exact absurd backtick quoted
  | string _ closed => exact flat_of_closingQuote closed
  | word => exact run _ (by decide)
  | number => exact run _ (by decide)
  | punct => exact List.not_mem_nil

namespace Lexer

/-- A lexer has read the first part of a text. -/
structure Reads (l : Lexer) (before : String) : Prop where
  offset : l.offset = before.utf8ByteSize
  line : l.line = 1 + before.toList.count '\n'
  lineStart : l.lineStart + byteCount (openLine before.toList) = before.utf8ByteSize

theorem start_reads : start.Reads "" :=
  ⟨rfl, rfl, rfl⟩

namespace Reads

variable {l : Lexer} {before : String}

theorem position (reads : l.Reads before) : l.position = .behind before := by
  have width : l.offset - l.lineStart + 1 = 1 + byteCount (openLine before.toList) := by
    have offset := reads.offset
    have lineStart := reads.lineStart
    omega
  rw [Lexer.position, column, width, reads.line, Position.behind, utf8ByteSize_ofList]
  rfl

theorem past (reads : l.Reads before) {cs : List Char} (flat : '\n' ∉ cs) :
    (l.past (byteCount cs)).Reads (before ++ String.ofList cs) where
  offset := by simp [Lexer.past, reads.offset, utf8ByteSize_ofList]
  line := by simp [Lexer.past, reads.line, List.count_eq_zero_of_not_mem flat]
  lineStart := by
    have lineStart := reads.lineStart
    simp only [Lexer.past, String.toList_append, String.toList_ofList,
      openLine_append_of_flat _ flat, byteCount_append, String.utf8ByteSize_append,
      utf8ByteSize_ofList]
    omega

theorem pastNewline (reads : l.Reads before) : l.pastNewline.Reads (before.push '\n') where
  offset := by
    rw [Lexer.pastNewline, reads.offset, String.utf8ByteSize_push]
    rfl
  line := by simp [Lexer.pastNewline, reads.line, Nat.add_assoc]
  lineStart := by
    have ended : openLine (before.toList ++ ['\n']) = [] :=
      openLine_append_newline _ List.not_mem_nil
    rw [String.toList_push, ended, Lexer.pastNewline, reads.offset, String.utf8ByteSize_push]
    rfl

/-- The newlines of a raw string are counted, and the line starts behind the last one. -/
theorem pastRawString (reads : l.Reads before) (literal : List Char) :
    (l.pastRawString literal).Reads (before ++ String.ofList literal) := by
  rw [Lexer.pastRawString]
  cases found : lastNewline? literal with
  | none => exact reads.past (lastNewline?_eq_none found)
  | some i =>
      obtain ⟨front, back, rfl, rfl, flat⟩ := lastNewline?_eq_some found
      have ended : openLine (before.toList ++ (front ++ '\n' :: back)) = back := by
        rw [← List.append_assoc, openLine_append_newline _ flat]
      have total : byteCount (front ++ '\n' :: back) = byteCount front + (1 + byteCount back) := by
        rw [byteCount_append]
        rfl
      refine ⟨?_, ?_, ?_⟩
      · rw [reads.offset, String.utf8ByteSize_append, utf8ByteSize_ofList]
      · simp [reads.line, Nat.add_assoc]
      · simp only [reads.offset, String.toList_append, String.toList_ofList, ended,
          String.utf8ByteSize_append, utf8ByteSize_ofList, total]
        omega

theorem pastToken (reads : l.Reads before) {c : Char} {cs : List Char} {k : Kind} {n : Nat}
    (here : lexeme c cs = .ok (k, n)) :
    (l.pastToken c (cs.take n)).Reads (before ++ k.text) := by
  rw [lexeme_text here, Lexer.pastToken]
  by_cases newline : c = '\n'
  · obtain rfl : n = 0 := by
      rw [newline] at here
      cases here
      rfl
    rw [if_pos newline, newline]
    exact reads.pastNewline
  · by_cases quoted : c = '\x60'
    · rw [if_neg newline, if_pos quoted]
      exact reads.pastRawString _
    · rw [if_neg newline, if_neg quoted]
      exact reads.past (flat_of_lexeme here newline quoted)

theorem pastGap (reads : l.Reads before) {c : Char} (gap : isGap c = true) :
    (l.past 1).Reads (before.push c) := by
  have blank : c = ' ' ∨ c = '\t' ∨ c = '\r' := by simpa [isGap, or_assoc] using gap
  have flat : '\n' ∉ [c] := by
    rcases blank with rfl | rfl | rfl <;> decide
  have narrow : byteCount [c] = 1 := by
    rcases blank with rfl | rfl | rfl <;> decide
  have next := reads.past flat
  rwa [narrow] at next

end Reads
end Lexer

/-! ## Scanned texts -/

/-- The first part of a text, scanned: tokens, each placed where it begins, and blanks. -/
inductive Scanned : List Token → String → Prop where
  | start : Scanned [] ""
  | blank {ts before c} (done : Scanned ts before) (gap : c = ' ' ∨ c = '\t' ∨ c = '\r') :
      Scanned ts (before.push c)
  | token {ts before k} (done : Scanned ts before) (some : k.text ≠ "") :
      Scanned (ts ++ [⟨k, .behind before⟩]) (before ++ k.text)

namespace Scanned

variable {ts front back : List Token} {t : Token} {text before : String}

/-- A text up to one of its tokens is scanned, and there the token begins. -/
theorem split (scanned : Scanned (front ++ t :: back) text) :
    ∃ before more, text = before ++ (t.kind.text ++ more) ∧ Scanned front before ∧
      t.position = .behind before ∧ t.kind.text ≠ "" := by
  generalize whole : front ++ t :: back = ts at scanned
  induction scanned generalizing back with
  | start => simp at whole
  | @blank ts text c _ _ ih =>
      obtain ⟨before, more, rfl, here⟩ := ih whole
      refine ⟨before, more.push c, ?_, here⟩
      rw [← String.toList_inj]
      simp
  | @token ts text k done some ih =>
      rcases List.eq_nil_or_concat back with rfl | ⟨back, last, rfl⟩
      · obtain ⟨rfl, same⟩ := List.append_inj' whole rfl
        cases same
        exact ⟨text, "", by simp, done, rfl, some⟩
      · rw [List.concat_eq_append, ← List.cons_append, ← List.append_assoc] at whole
        obtain ⟨earlier, -⟩ := List.append_inj' whole rfl
        obtain ⟨before, more, rfl, here⟩ := ih earlier
        exact ⟨before, more ++ k.text, by simp only [String.append_assoc], here⟩

theorem precedes (scanned : Scanned ts text) :
    ts.Pairwise (fun t u => t.position.Precedes u.position) ∧
      ∀ t ∈ ts, t.position.Precedes (.behind text) := by
  induction scanned with
  | start => simp
  | @blank ts before c _ _ ih =>
      refine ⟨ih.1, fun t member => (ih.2 t member).trans ?_⟩
      exact Position.precedes_push before c
  | @token ts before k _ some ih =>
      have later := Position.behind_precedes before some
      refine ⟨List.pairwise_append.mpr ⟨ih.1, List.pairwise_singleton _ _, ?_⟩, ?_⟩
      · intro t member u last
        rw [List.mem_singleton.mp last]
        exact ih.2 t member
      · intro t member
        rcases List.mem_append.mp member with earlier | last
        · exact (ih.2 t earlier).trans later
        · rw [List.mem_singleton.mp last]
          exact later

end Scanned

/-- What stands where scanning stops. -/
def Cause.Stops : Cause → String → Prop
  | .illegalCharacter c, rest => (∃ more, rest = String.singleton c ++ more) ∧
      c ≠ '\n' ∧ c ≠ '"' ∧ c ≠ '\x60' ∧ isGap c = false ∧ isLetter c = false ∧
      c.isDigit = false ∧ Punct.ofChar? c = none
  | .comment, rest => ∃ more, rest = "//" ++ more ∨ rest = "/*" ++ more
  | .openRawString, rest => ∃ more, rest = "`" ++ more ∧ '\x60' ∉ more.toList
  | .openString, rest => ∃ more, rest = "\"" ++ more ∧ closingQuote false more.toList = none
  | _, _ => False

theorem closingBacktick_eq_none {cs : List Char} (unclosed : closingBacktick cs = none) :
    '\x60' ∉ cs := by
  induction cs with
  | nil => exact List.not_mem_nil
  | cons c cs ih =>
      simp only [closingBacktick] at unclosed
      split at unclosed
      · cases unclosed
      · rename_i other
        have later := ih (Option.map_eq_none_iff.mp unclosed)
        exact List.not_mem_cons_of_ne_of_not_mem (Ne.symm other) later

theorem lexeme_stops {c : Char} {cs : List Char} {cause : Cause} (solid : isGap c = false)
    (here : lexeme c cs = .error cause) : cause.Stops (String.ofList (c :: cs)) := by
  unfold lexeme at here
  split at here
  · cases here
  split at here
  · rename_i comment
    cases here
    obtain ⟨rfl, head⟩ := comment
    cases cs with
    | nil => simp at head
    | cons d cs =>
        have next : d = '/' ∨ d = '*' := by simpa using head
        rw [ofList_cons, ofList_cons, ← String.append_assoc]
        rcases next with rfl | rfl
        · exact ⟨_, .inl rfl⟩
        · exact ⟨_, .inr rfl⟩
  split at here
  · rename_i backtick
    cases closed : closingBacktick cs with
    | some n =>
        rw [closed] at here
        cases here
    | none =>
        rw [closed] at here
        cases here
        rw [ofList_cons, backtick]
        exact ⟨_, rfl, by simpa using closingBacktick_eq_none closed⟩
  split at here
  · rename_i quote
    cases closed : closingQuote false cs with
    | some n =>
        rw [closed] at here
        cases here
    | none =>
        rw [closed] at here
        cases here
        rw [ofList_cons, quote]
        exact ⟨_, rfl, by simpa using closed⟩
  split at here
  · cases here
  split at here
  · cases here
  split at here
  · cases here
  · cases here
    exact ⟨⟨_, ofList_cons c cs⟩, by simp_all⟩

/-- Scanning on from a place either reaches the end or stops where something cannot be scanned. -/
theorem scan_spec {l : Lexer} {done : List Token} {before : String} (reads : l.Reads before)
    (scanned : Scanned done before) (cs : List Char) :
    (∃ more, tokensFrom l cs =
        .ok (more ++ [⟨.eof, .behind (before ++ String.ofList cs)⟩]) ∧
        Scanned (done ++ more) (before ++ String.ofList cs)) ∨
      ∃ ts read rest cause, tokensFrom l cs = .error ⟨.behind read, cause⟩ ∧
        before ++ String.ofList cs = read ++ rest ∧ Scanned ts read ∧ cause.Stops rest := by
  -- a token takes as many characters as it wants, so the induction is on their number
  induction size : cs.length using Nat.strongRecOn generalizing cs l done before with
  | ind size ih =>
  subst size
  cases cs with
  | nil => exact .inl ⟨[], by simp [tokensFrom, reads.position], by simpa using scanned⟩
  | cons c cs =>
      rw [tokensFrom]
      cases gap : isGap c with
      | true =>
          have blank : c = ' ' ∨ c = '\t' ∨ c = '\r' := by simpa [isGap, or_assoc] using gap
          have joined : before.push c ++ String.ofList cs = before ++ String.ofList (c :: cs) := by
            rw [← String.toList_inj]
            simp
          have next := ih _ (by simp) (reads.pastGap gap) (scanned.blank blank) cs rfl
          rw [joined] at next
          rw [if_pos rfl]
          exact next
      | false =>
          rw [if_neg (by decide)]
          cases here : lexeme c cs with
          | error cause =>
              refine .inr ⟨done, before, _, cause, ?_, rfl, scanned, lexeme_stops gap here⟩
              rw [reads.position]
          | ok found =>
              obtain ⟨k, n⟩ := found
              have text := lexeme_text here
              have some : k.text ≠ "" := by simp [text]
              have fewer : (cs.drop n).length < (c :: cs).length := by
                simp only [List.length_drop, List.length_cons]
                omega
              have joined : before ++ k.text ++ String.ofList (cs.drop n) =
                  before ++ String.ofList (c :: cs) := by
                rw [text, ← String.toList_inj]
                simp
              have next := ih _ fewer (reads.pastToken here) (scanned.token some) (cs.drop n) rfl
              rw [joined] at next
              rcases next with ⟨more, read, all⟩ | ⟨ts, read, rest, cause, refused, stop⟩
              · exact .inl ⟨⟨k, .behind before⟩ :: more, by simp [read, reads.position],
                  by simpa using all⟩
              · exact .inr ⟨ts, read, rest, cause, by simp [refused], stop⟩

theorem scanned_of_tokens {text : String} {ts : List Token} (read : tokens text = .ok ts) :
    ∃ front, ts = front ++ [⟨.eof, .behind text⟩] ∧ Scanned front text := by
  have found := scan_spec Lexer.start_reads .start text.toList
  rw [← tokens, read] at found
  rcases found with ⟨more, same, scanned⟩ | ⟨_, _, _, _, refused, -⟩
  · cases same
    exact ⟨more, by simp, by simpa using scanned⟩
  · cases refused

theorem stops_of_tokens {text : String} {e : Error} (refused : tokens text = .error e) :
    ∃ ts before after, text = before ++ after ∧ Scanned ts before ∧
      e.position = .behind before ∧ e.cause.Stops after := by
  have found := scan_spec Lexer.start_reads .start text.toList
  rw [← tokens, refused] at found
  rcases found with ⟨_, read, -⟩ | ⟨ts, before, after, cause, same, split, scanned, stops⟩
  · cases read
  · cases same
    exact ⟨ts, before, after, by simpa using split, scanned, rfl, stops⟩

/-- The tokens of a text are at different places. -/
theorem nodup_positions {text : String} {ts : List Token} (read : tokens text = .ok ts) :
    (ts.map (·.position)).Nodup := by
  obtain ⟨front, rfl, scanned⟩ := scanned_of_tokens read
  obtain ⟨inside, last⟩ := scanned.precedes
  refine List.pairwise_map.mpr (List.pairwise_append.mpr ⟨?_, List.pairwise_singleton _ _, ?_⟩)
  · exact inside.imp Position.Precedes.ne
  · intro t member u ending
    rw [List.mem_singleton.mp ending]
    exact (last t member).ne

theorem ended_of_tokens {text : String} {ts : List Token} (read : tokens text = .ok ts) :
    Ended ts := by
  obtain ⟨front, rfl, -⟩ := scanned_of_tokens read
  simp [Ended]

/-- A text that can be scanned but not read is blamed at its first wrong token. -/
theorem position_eq_iff_firstWrong {text : String} {ts : List Token} {e : Error}
    (read : tokens text = .ok ts) (refused : parse text = .error e) {i : Nat}
    (inside : i < ts.length) : e.position = ts[i].position ↔ FirstWrong ts i := by
  simp only [parse, read] at refused
  exact position_eq_iff (ended_of_tokens read) refused (nodup_positions read) inside

/-- Each token of a text begins at its place. The end of the text is the last one. -/
theorem exists_place {text : String} {front back : List Token} {t : Token}
    (read : tokens text = .ok (front ++ t :: back)) :
    ∃ before more, text = before ++ (t.kind.text ++ more) ∧ Scanned front before ∧
      t.position = .behind before ∧ (t.kind = .eof → more = "") := by
  obtain ⟨body, whole, scanned⟩ := scanned_of_tokens read
  rcases List.eq_nil_or_concat back with rfl | ⟨back, last, rfl⟩
  · obtain ⟨rfl, same⟩ := List.append_inj' whole rfl
    cases same
    exact ⟨text, "", by simp [Kind.text], scanned, rfl, fun _ => rfl⟩
  · rw [List.concat_eq_append, ← List.cons_append, ← List.append_assoc] at whole
    obtain ⟨rfl, -⟩ := List.append_inj' whole rfl
    obtain ⟨before, more, split, earlier, here, some⟩ := scanned.split
    refine ⟨before, more, split, earlier, here, fun ending => ?_⟩
    rw [ending] at some
    exact absurd rfl some

/-- Why a text is blamed between these parts of it: a character, a comment or a literal that cannot
be scanned begins there, or a token that is refused, which may be the end of the text. -/
inductive Blamed (text : String) (cause : Cause) (before after : String) : Prop where
  | stopped {ts} (scanned : Scanned ts before) (stops : cause.Stops after)
  | refused {front t back more} (read : tokens text = .ok (front ++ t :: back))
      (scanned : Scanned front before) (here : t.position = .behind before)
      (refuses : cause.Refuses t.kind) (begins : after = t.kind.text ++ more)
      (last : t.kind = .eof → after = "")

theorem blamed_of_parse {text : String} {e : Error} (refused : parse text = .error e) :
    ∃ before after, text = before ++ after ∧ e.position = .behind before ∧
      Blamed text e.cause before after := by
  cases read : tokens text with
  | error e' =>
      simp only [parse, read] at refused
      cases refused
      obtain ⟨ts, before, after, split, scanned, here, stops⟩ := stops_of_tokens read
      exact ⟨before, after, split, here, .stopped scanned stops⟩
  | ok ts =>
      simp only [parse, read] at refused
      obtain ⟨i, inside, position, refuses, -⟩ := exists_firstWrong (ended_of_tokens read) refused
      have whole : tokens text = .ok (ts.take i ++ ts[i] :: ts.drop (i + 1)) := by
        rw [read, List.getElem_cons_drop, List.take_append_drop]
      obtain ⟨before, more, split, scanned, here, last⟩ := exists_place whole
      refine ⟨before, _, split, position.trans here, .refused whole scanned here refuses rfl ?_⟩
      intro ending
      simp [ending, last ending, Kind.text]

/-- A text that can be scanned consists of its tokens with only blanks between them, and each token
is at the place where it begins. The error of a text that is not formatted is at the place of what
cannot be scanned or read there. -/
theorem positions_exact (text : String) :
    (∀ ts, tokens text = .ok ts →
        ∃ front, ts = front ++ [⟨.eof, .behind text⟩] ∧ Scanned front text) ∧
      ∀ e, format text = .error e → ∃ before after, text = before ++ after ∧
        e.position = .behind before ∧ Blamed text e.cause before after := by
  refine ⟨fun ts => scanned_of_tokens, fun e unformatted => blamed_of_parse ?_⟩
  rw [format] at unformatted
  cases refused : parse text with
  | ok decls =>
      rw [refused] at unformatted
      cases unformatted
  | error e' =>
      rw [refused] at unformatted
      cases unformatted
      rfl

/-- A letter of two bytes, a raw string over two lines, and a word that is refused behind it. -/
def strayName : String :=
  "type T struct \x7bß `a\nβ`\tC\x7d"

def strayNameTokens : List Token :=
  [⟨.word "type", ⟨1, 1⟩⟩, ⟨.word "T", ⟨1, 6⟩⟩, ⟨.word "struct", ⟨1, 8⟩⟩,
    ⟨.punct .leftBrace, ⟨1, 15⟩⟩, ⟨.word "ß", ⟨1, 16⟩⟩, ⟨.str "`a\nβ`", ⟨1, 19⟩⟩,
    ⟨.word "C", ⟨2, 5⟩⟩, ⟨.punct .rightBrace, ⟨2, 6⟩⟩]

/-- A superscript is no digit. -/
def superscript : String :=
  "type T struct \x7b\n\tÄ² int\x7d"

theorem positions_exact_strayName :
    (tokens strayName = .ok (strayNameTokens ++ [⟨.eof, ⟨2, 7⟩⟩]) ∧
        Scanned strayNameTokens strayName) ∧
      (format strayName = .error ⟨⟨2, 5⟩, .unexpected .terminator (.word "C")⟩ ∧
        ∃ before after, strayName = before ++ after ∧ ⟨2, 5⟩ = Position.behind before ∧
          Blamed strayName (.unexpected .terminator (.word "C")) before after) ∧
      format superscript = .error ⟨⟨2, 4⟩, .illegalCharacter '²'⟩ ∧
        ∃ before after, superscript = before ++ after ∧ ⟨2, 4⟩ = Position.behind before ∧
          Blamed superscript (.illegalCharacter '²') before after := by
  have read : tokens strayName = .ok (strayNameTokens ++ [⟨.eof, ⟨2, 7⟩⟩]) := by decide +kernel
  have refused : format strayName = .error ⟨⟨2, 5⟩, .unexpected .terminator (.word "C")⟩ := by
    decide +kernel
  have stopped : format superscript = .error ⟨⟨2, 4⟩, .illegalCharacter '²'⟩ := by decide +kernel
  obtain ⟨front, whole, scanned⟩ := (positions_exact strayName).1 _ read
  obtain ⟨rfl, -⟩ := List.append_inj' whole rfl
  exact ⟨⟨read, scanned⟩, ⟨refused, (positions_exact strayName).2 _ refused⟩, stopped,
    (positions_exact superscript).2 _ stopped⟩

end GoSchema.Source
