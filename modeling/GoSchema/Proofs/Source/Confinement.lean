import GoSchema.Proofs.Source.Nesting
import GoSchema.Proofs.Source.Spelling

/-! # Pieces that keep to themselves

A piece of text without quotes and braces is scanned on its own and does not reach into what
follows, whether it makes sense or not. So a text of such pieces, line by line, is accepted when
every piece is.
-/

namespace GoSchema.Source

/-- Whatever follows, this text spells nothing. -/
def Stuck (text : String) : Prop :=
  ∀ cs ls, ¬Spells (text.toList ++ cs) ls

/-- The characters that begin a literal, and the braces. -/
def reaching : List Char :=
  ['\x60', '"', '\x7b', '\x7d']

/-! ## Scanning up to a space -/

theorem takeWhile_append_space {p : Char → Bool} (stops : p ' ' = false) (name cs : List Char) :
    (name ++ ' ' :: cs).takeWhile p = name.takeWhile p := by
  induction name with
  | nil => rw [List.nil_append, List.takeWhile_cons_of_neg (by simp [stops]), List.takeWhile_nil]
  | cons c name ih =>
      rw [List.cons_append, List.takeWhile_cons, List.takeWhile_cons, ih]

theorem takeWhile_word_space (name cs : List Char) :
    (name ++ ' ' :: cs).takeWhile isWordChar = name.takeWhile isWordChar :=
  takeWhile_append_space (by decide +kernel) name cs

theorem takeWhile_number_space (name cs : List Char) :
    (name ++ ' ' :: cs).takeWhile (fun d => isWordChar d || d == '.') =
      name.takeWhile fun d => isWordChar d || d == '.' :=
  takeWhile_append_space (by decide +kernel) name cs

/-- A token before a space that is no literal does not depend on what follows the space. -/
theorem lexeme_append_space {c : Char} (own : c ∉ reaching) (name cs : List Char) :
    lexeme c (name ++ ' ' :: cs) = lexeme c (name ++ [' ']) := by
  have backtick : c ≠ '\x60' := (ne_of_mem_of_not_mem (by decide) own).symm
  have quote : c ≠ '"' := (ne_of_mem_of_not_mem (by decide) own).symm
  have head : (name ++ ' ' :: cs).head? = (name ++ [' ']).head? := by cases name <;> rfl
  unfold lexeme
  rw [head, if_neg backtick, if_neg quote, if_neg backtick, if_neg quote,
    takeWhile_word_space, takeWhile_word_space, takeWhile_number_space, takeWhile_number_space]

/-- Such a token ends before the space, and it is no brace. -/
theorem lexeme_confined {c : Char} (own : c ∉ reaching) {name : List Char} {k : Kind} {n : Nat}
    (here : lexeme c (name ++ [' ']) = .ok (k, n)) :
    n ≤ name.length ∧ ∀ depth, k.level false depth = some depth := by
  cases lexeme_spec here with
  | newline => exact ⟨Nat.zero_le _, fun depth => by simp [Kind.level]⟩
  | rawString backtick => exact absurd (by rw [backtick]; decide) own
  | string quote => exact absurd (by rw [quote]; decide) own
  | word letter =>
      rw [takeWhile_word_space]
      exact ⟨(List.takeWhile_sublist _).length_le, fun _ => rfl⟩
  | number digit =>
      rw [takeWhile_number_space]
      exact ⟨(List.takeWhile_sublist _).length_le, fun _ => rfl⟩
  | @punct mark known =>
      refine ⟨Nat.zero_le _, fun depth => ?_⟩
      cases mark with
      | leftBrace => exact absurd (by rw [← Punct.char_of_ofChar? known]; decide) own
      | rightBrace => exact absurd (by rw [← Punct.char_of_ofChar? known]; decide) own
      | _ => rfl

theorem scan_name {name : List Char} (own : ∀ c ∈ name, c ∉ reaching) :
    (∃ ks, Closed false ks ∧ ∀ cs, Adds (name ++ [' ']) cs ks) ∨
      ∀ cs ls, ¬Spells (name ++ ' ' :: cs) ls := by
  induction size : name.length using Nat.strongRecOn generalizing name with
  | ind size ih =>
  subst size
  cases name with
  | nil => exact .inl ⟨[], closed_nil, fun _ => .gap (by decide)⟩
  | cons c name =>
  obtain ⟨here, later⟩ := List.forall_mem_cons.mp own
  cases blank : isGap c with
  | true =>
      rcases ih name.length (by simp) later rfl with ⟨ks, closed, adds⟩ | stuck
      · exact .inl ⟨ks, closed, fun cs => (Adds.gap blank).append (adds cs)⟩
      · refine .inr fun cs ls spelled => ?_
        cases spelled with
        | gap _ rest => exact stuck cs ls rest
        | token solid =>
            rw [blank] at solid
            cases solid
  | false =>
      cases token : lexeme c (name ++ [' ']) with
      | error cause =>
          refine .inr fun cs ls spelled => ?_
          cases spelled with
          | gap blank' =>
              rw [blank] at blank'
              cases blank'
          | token _ found =>
              have same := (lexeme_append_space here name cs).trans token
              cases found.symm.trans same
      | ok found =>
          obtain ⟨k, n⟩ := found
          obtain ⟨fits, neutral⟩ := lexeme_confined here token
          have split (cs : List Char) :
              c :: name ++ ' ' :: cs = c :: name.take n ++ (name.drop n ++ ' ' :: cs) := by
            rw [List.cons_append, List.cons_append, ← List.append_assoc, List.take_append_drop]
          have taken : (name.take n).length = n := List.length_take_of_le fits
          have first (cs : List Char) : Adds (c :: name.take n) (name.drop n ++ ' ' :: cs) [k] := by
            refine .token blank ?_
            rw [← List.append_assoc, List.take_append_drop, lexeme_append_space here, token, taken]
          have own' : ∀ d ∈ name.drop n, d ∉ reaching :=
            fun d member => later d (List.mem_of_mem_drop member)
          have fewer : (name.drop n).length < (c :: name).length := by
            rw [List.length_drop, List.length_cons]
            omega
          rcases ih _ fewer own' rfl with ⟨ks, closed, adds⟩ | stuck
          · refine .inl ⟨k :: ks, closed.cons neutral, fun cs => ?_⟩
            have next : Adds (c :: name.take n) (name.drop n ++ [' '] ++ cs) [k] := by
              rw [List.append_assoc]
              exact first cs
            have whole := next.append (adds cs)
            rw [← split] at whole
            exact whole
          · refine .inr fun cs ls spelled => ?_
            rw [split] at spelled
            obtain ⟨ms, -, rest⟩ := (first cs ls).mp spelled
            exact stuck cs ms rest

/-! ## Texts of several lines -/

theorem Stuck.append {s : String} (stuck : Stuck s) (t : String) : Stuck (s ++ t) := by
  intro cs ls spelled
  rw [String.toList_append, List.append_assoc] at spelled
  exact stuck _ ls spelled

theorem Leads.stuck {s t : String} {ks : List Kind} (leads : Leads s ks) (stuck : Stuck t) :
    Stuck (s ++ t) := by
  intro cs ls spelled
  rw [String.toList_append, List.append_assoc] at spelled
  obtain ⟨ms, -, rest⟩ := (leads _ ls).mp spelled
  exact stuck cs ms rest

def IsListOf (Piece : List Kind → Prop) (text : String) : Prop :=
  ∃ ks, Spells text.toList (ks ++ [.eof]) ∧ Separated Piece ks

/-- A text that keeps to itself is a list of pieces, or it is not, as `good` says. -/
inductive Outcome (Piece : List Kind → Prop) (text : String) (good : Prop) : Prop where
  | stuck (never : Stuck text) (bad : ¬good)
  | spelled {ks} (closed : Closed false ks) (written : Writes text ks)
      (means : Separated Piece ks ↔ good)

namespace Outcome

variable {Piece : List Kind → Prop} {text line : String} {good first : Prop}

theorem isListOf_iff (outcome : Outcome Piece text good) : IsListOf Piece text ↔ good := by
  cases outcome with
  | stuck never bad =>
      refine iff_of_false ?_ bad
      intro given
      obtain ⟨ks, spelled, -⟩ := given
      rw [← List.append_nil text.toList] at spelled
      exact never [] _ spelled
  | @spelled ks closed written means =>
      rw [← means]
      constructor
      · intro given
        obtain ⟨ls, spelled, separated⟩ := given
        obtain rfl := List.append_cancel_right (spelled.unique written.spells)
        exact separated
      · intro separated
        exact ⟨ks, written.spells, separated⟩

theorem congr {other : Prop} (outcome : Outcome Piece text good) (same : good ↔ other) :
    Outcome Piece text other :=
  propext same ▸ outcome

/-- The first line, and the lines after it. -/
theorem lines (cuttable : Cuttable Piece) (here : Outcome Piece line first)
    (rest : Outcome Piece text good) : Outcome Piece (line ++ "\n" ++ text) (first ∧ good) := by
  cases here with
  | stuck never bad => exact .stuck ((never.append _).append _) fun both => bad both.1
  | @spelled ks closed written means =>
      have front := written.append_leads ⟨'\n', [], rfl, by decide +kernel⟩ leads_newline
      cases rest with
      | stuck never bad => exact .stuck (front.stuck never) fun both => bad both.2
      | @spelled ls closed' written' means' =>
          have all := front.append_writes written'
          rw [List.append_assoc, List.singleton_append] at all
          have neutral (depth : Nat) : Kind.level false depth .newline = some depth := by
            simp [Kind.level]
          refine .spelled (closed.append (closed'.cons neutral)) all ?_
          rw [← means, ← means']
          constructor
          · exact Separated.cut cuttable closed
          · intro given
            obtain ⟨one, other⟩ := given
            exact one.lines other

theorem empty : Outcome Piece "" True :=
  .spelled closed_nil Leads.nil.writes (iff_true_intro (.done (List.forall_mem_nil _)))

end Outcome

theorem outcome_of_name {Piece : List Kind → Prop} {name tail : String} {ks : List Kind}
    (own : ∀ c ∈ name.toList, c ∉ reaching) (written : Writes tail ks) (closed : Closed false ks) :
    Outcome Piece (name ++ " " ++ tail) (IsListOf Piece (name ++ " " ++ tail)) := by
  have chars : (name ++ " ").toList = name.toList ++ [' '] := by
    rw [String.toList_append]
    rfl
  rcases scan_name own with ⟨ls, closed', adds⟩ | stuck
  · have front : Leads (name ++ " ") ls := fun cs => by rw [chars]; exact adds cs
    have all := front.append_writes written
    refine .spelled (closed'.append closed) all ?_
    constructor
    · intro separated
      exact ⟨_, all.spells, separated⟩
    · intro given
      obtain ⟨ms, spelled, separated⟩ := given
      obtain rfl := List.append_cancel_right (spelled.unique all.spells)
      exact separated
  · have never : Stuck (name ++ " ") := by
      intro cs ms spelled
      rw [chars, List.append_assoc] at spelled
      exact stuck cs ms spelled
    have never := never.append tail
    refine .stuck never ?_
    intro given
    obtain ⟨ms, spelled, -⟩ := given
    rw [← List.append_nil (name ++ " " ++ tail).toList] at spelled
    exact never [] _ spelled

end GoSchema.Source
