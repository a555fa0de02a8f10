import GoSchema.Source.Columns
import Mathlib.Data.List.Forall2
import Mathlib.Data.List.SplitBy

/-! # What alignment does to a row

A line holds the cells of its row in order. Only spaces are added, after every cell but the last,
and at least one after a cell that is not empty.
-/

namespace GoSchema.Source

def spaces (n : Nat) : String :=
  String.ofList (List.replicate n ' ')

/-- A line that is made from the cells of a row. -/
inductive LaidOut : Row → String → Prop where
  | none : LaidOut [] ""
  | last (cell : String) : LaidOut [cell] cell
  | next {cell next row line} (n : Nat) (apart : cell ≠ "" → 1 ≤ n)
      (rest : LaidOut (next :: row) line) :
      LaidOut (cell :: next :: row) (cell ++ spaces n ++ line)

theorem LaidOut.ne_empty {cell line : String} {row : Row} (laid : LaidOut (cell :: row) line)
    (filled : cell ≠ "") : line ≠ "" := by
  cases laid with
  | last => exact filled
  | next n apart rest =>
      intro none
      exact filled (String.append_eq_empty_iff.mp (String.append_eq_empty_iff.mp none).1).1

namespace Columns

theorem le_foldl_max {n m : Nat} {ns : List Nat} : n ≤ m ∨ n ∈ ns → n ≤ ns.foldl max m := by
  induction ns generalizing m with
  | nil =>
      intro given
      rcases given with below | member
      · exact below
      · cases member
  | cons k ns ih =>
      intro given
      rcases given with below | member
      · exact ih (.inl (Nat.le_trans below (Nat.le_max_left m k)))
      · rcases List.mem_cons.mp member with rfl | later
        · exact ih (.inl (Nat.le_max_right m n))
        · exact ih (.inr later)

/-- The width of a column leaves room for a space after each cell that is not empty. -/
theorem length_lt_width {rows : List Row} {row : Row} (member : row ∈ rows)
    (filled : row.headD "" ≠ "") : (row.headD "").length < width rows := by
  have below : (row.headD "").length ≤ (rows.map fun row => (row.headD "").length).foldl max 0 :=
    le_foldl_max (.inr (List.mem_map_of_mem member))
  have positive : (row.headD "").length ≠ 0 := by
    rwa [ne_eq, String.length_eq_zero_iff]
  simp only [width]
  split
  · omega
  · omega

/-- The first cell of a row, with spaces after it if the row goes on. -/
inductive First : Row → String → Prop where
  | only {row} (ends : continues row = false) : First row (row.headD "")
  | padded {row} (n : Nat) (goes : continues row = true) (apart : row.headD "" ≠ "" → 1 ≤ n) :
      First row (row.headD "" ++ spaces n)

theorem forall₂_runCells (run : List Row) : List.Forall₂ First run (runCells run) := by
  rw [runCells, List.forall₂_map_right_iff, List.forall₂_same]
  intro row member
  cases goes : continues row with
  | false =>
      rw [if_neg (by decide)]
      exact .only goes
  | true =>
      rw [if_pos rfl]
      refine .padded _ goes fun filled => ?_
      have := length_lt_width member filled
      omega

theorem forall₂_firstCells (rows : List Row) : List.Forall₂ First rows (firstCells rows) := by
  have runs (groups : List (List Row)) :
      List.Forall₂ First groups.flatten (groups.flatMap runCells) := by
    induction groups with
    | nil => exact .nil
    | cons run groups ih => exact List.rel_append (forall₂_runCells run) ih
  have all := runs (rows.splitBy fun a b => continues a == continues b)
  rwa [List.flatten_splitBy] at all

theorem First.append {row : Row} {text line : String} (first : First row text)
    (rest : LaidOut row.tail line) : LaidOut row (text ++ line) := by
  cases first with
  | only ends =>
      match row, ends, rest with
      | [], _, .none => exact .none
      | [cell], _, .none =>
          rw [String.append_empty]
          exact .last cell
  | padded n goes apart =>
      match row, goes, rest with
      | cell :: next :: row, _, rest => exact .next n apart rest

theorem forall₂_zipWith {rows : List Row} {firsts rests : List String}
    (first : List.Forall₂ First rows firsts)
    (rest : List.Forall₂ LaidOut (rows.map List.tail) rests) :
    List.Forall₂ LaidOut rows (List.zipWith (· ++ ·) firsts rests) := by
  induction first generalizing rests with
  | nil => exact .nil
  | cons here _ ih =>
      cases rest with
      | cons rest later => exact .cons (here.append rest) (ih later)

theorem forall₂_lines {n : Nat} {rows : List Row} (fits : ∀ row ∈ rows, row.length ≤ n) :
    List.Forall₂ LaidOut rows (lines n rows) := by
  induction n generalizing rows with
  | zero =>
      rw [lines, List.forall₂_map_right_iff, List.forall₂_same]
      intro row member
      rw [List.eq_nil_of_length_eq_zero (Nat.le_zero.mp (fits row member))]
      exact .none
  | succ n ih =>
      refine forall₂_zipWith (forall₂_firstCells rows) (ih ?_)
      intro _ member
      obtain ⟨row, known, rfl⟩ := List.mem_map.mp member
      have := fits row known
      rw [List.length_tail]
      omega

end Columns

theorem forall₂_align (rows : List Row) : List.Forall₂ LaidOut rows (align rows) :=
  Columns.forall₂_lines fun _ member =>
    Columns.le_foldl_max (.inr (List.mem_map_of_mem member))

end GoSchema.Source
