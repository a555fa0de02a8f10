import GoSchema.Proofs.Source.Layout
import Mathlib.Data.List.DropRight

/-! # Columns of a table

Neighbouring rows that go on after a cell form runs, one set of runs for each column. In a run the
cell and its padding take the same room in every row, so the next cells stand below each other.
-/

namespace GoSchema.Source

namespace Row

/-- A cell of a row; behind the last one all cells are empty. -/
def cell (row : Row) (c : Nat) : String :=
  row.getD c ""

/-- The cells of a row in order, each but the last with as many spaces behind it as `pad` says. -/
def spread (pad : Nat → Nat) (row : Row) : String :=
  String.join (row.mapIdx fun c cell => if c + 1 < row.length then cell ++ spaces (pad c) else cell)

/-- What stands before the cell `c` when a row is spread. -/
def lead (pad : Nat → Nat) (row : Row) (c : Nat) : String :=
  String.join ((row.take c).mapIdx fun d cell => cell ++ spaces (pad d))

variable {pad : Nat → Nat} {row : Row} {c : Nat}

@[simp]
theorem cell_zero (row : Row) : row.cell 0 = row.headD "" := by
  cases row <;> rfl

theorem spread_cons (first next : String) (row : Row) :
    spread pad (first :: next :: row) =
      first ++ spaces (pad 0) ++ spread (fun c => pad (c + 1)) (next :: row) := by
  simp [spread, List.mapIdx_cons]

theorem lead_cons (first : String) (row : Row) :
    lead pad (first :: row) (c + 1) =
      first ++ spaces (pad 0) ++ lead (fun c => pad (c + 1)) row c := by
  simp [lead, List.mapIdx_cons]

theorem spread_congr {pad pad' : Nat → Nat} {row : Row}
    (same : ∀ c, c + 1 < row.length → pad c = pad' c) : spread pad row = spread pad' row := by
  refine congrArg String.join (List.mapIdx_eq_mapIdx_iff.mpr fun c _ => ?_)
  by_cases goes : c + 1 < row.length
  · rw [if_pos goes, if_pos goes, same c goes]
  · rw [if_neg goes, if_neg goes]

/-- The first cell and the rest of a row, if the cell has no padding in a row without rest. -/
theorem spread_eq_head (row : Row) (ends : Columns.continues row = false → pad 0 = 0) :
    spread pad row = row.headD "" ++ spaces (pad 0) ++ spread (fun c => pad (c + 1)) row.tail := by
  match row with
  | [] => simp [spread, spaces, ends rfl]
  | [cell] => simp [spread, spaces, ends rfl]
  | first :: next :: row => exact spread_cons first next row

/-- A cell stands behind its lead. -/
theorem exists_spread_eq (pad : Nat → Nat) (inside : c < row.length) :
    ∃ rest, spread pad row = lead pad row c ++ row.cell c ++ rest ∧
      (c + 1 = row.length → rest = "") ∧
      (c + 1 < row.length → ∃ more, rest = spaces (pad c) ++ more) := by
  induction row generalizing c pad with
  | nil => simp at inside
  | cons first row ih =>
      cases row with
      | nil =>
          obtain rfl : c = 0 := by simpa using inside
          exact ⟨"", by simp [spread, lead, cell], by simp, by simp⟩
      | cons next row =>
          cases c with
          | zero =>
              refine ⟨spaces (pad 0) ++ spread (fun c => pad (c + 1)) (next :: row), ?_, by simp,
                fun _ => ⟨_, rfl⟩⟩
              simp [spread_cons, lead, cell, String.append_assoc]
          | succ c =>
              obtain ⟨rest, laid, last, more⟩ :=
                ih (c := c) (fun c => pad (c + 1)) (by simpa using inside)
              refine ⟨rest, ?_, by simpa using last, by simpa using more⟩
              simp [spread_cons, lead_cons, laid, cell, String.append_assoc]

theorem spaces_succ (n : Nat) : spaces (n + 1) = " " ++ spaces n := by
  rw [← String.toList_inj]
  simp [spaces, List.replicate_succ]

theorem length_spaces (n : Nat) : (spaces n).length = n := by
  simp [spaces]

/-- Leads are as long as each other if their cells take the same room. -/
theorem length_lead_eq (pad pad' : Nat → Nat) {row' : Row} (inside : c ≤ row.length)
    (inside' : c ≤ row'.length)
    (same : ∀ d < c, (row.cell d).length + pad d = (row'.cell d).length + pad' d) :
    (lead pad row c).length = (lead pad' row' c).length := by
  induction c generalizing row row' pad pad' with
  | zero => simp [lead]
  | succ c ih =>
      match row, row', inside, inside' with
      | first :: row, first' :: row', inside, inside' =>
          have here := same 0 (by omega)
          have fits : c ≤ row.length := by simpa using inside
          have fits' : c ≤ row'.length := by simpa using inside'
          have later := ih (fun c => pad (c + 1)) (fun c => pad' (c + 1)) fits fits'
            fun d below => same (d + 1) (by omega)
          simp only [lead_cons, String.length_append, length_spaces, later]
          simp only [cell_zero, List.headD_cons] at here
          omega

end Row

/-! ## What a table has to look like -/

/-- Rows that all go on after the cell `c`, while the rows next to them do not. -/
structure ColumnRun (c : Nat) (before run after : List Row) : Prop where
  goes : ∀ row ∈ run, c + 1 < row.length
  first : ∀ row ∈ before.getLast?, ¬c + 1 < row.length
  last : ∀ row ∈ after.head?, ¬c + 1 < row.length

/-- The room that each of some cells takes when they stand below each other: none if all are empty,
and otherwise one character more than the longest of them. -/
inductive Room (cells : List String) : Nat → Prop where
  | none (empty : ∀ cell ∈ cells, cell = "") : Room cells 0
  | some {longest} (member : longest ∈ cells) (filled : longest ≠ "")
      (bound : ∀ cell ∈ cells, cell.length ≤ longest.length) : Room cells (longest.length + 1)

/-- One line for each row, with the cells of each run of a column in the same room. The cell `c` of
row `i` has `pad i c` spaces behind it. -/
structure Aligned (rows : List Row) (pad : Nat → Nat → Nat) (lines : List String) : Prop where
  spread : lines = rows.mapIdx fun i row => row.spread (pad i)
  room : ∀ c before run after, rows = before ++ run ++ after → ColumnRun c before run after →
    ∃ n, Room (run.map (·.cell c)) n ∧
      ∀ j (inside : j < run.length), (run[j].cell c).length + pad (before.length + j) c = n

theorem Room.lt {cells : List String} {n : Nat} (room : Room cells n) {cell : String}
    (member : cell ∈ cells) (filled : cell ≠ "") : cell.length < n := by
  cases room with
  | none empty => exact absurd (empty cell member) filled
  | some _ _ bound => exact Nat.lt_succ_of_le (bound cell member)

/-- A row that goes on after a cell lies in a run, with the next row if that goes on as well. -/
theorem exists_columnRun {rows : List Row} {i c : Nat} {row : Row} (here : rows[i]? = some row)
    (goes : c + 1 < row.length) :
    ∃ before run after j, rows = before ++ run ++ after ∧ ColumnRun c before run after ∧
      before.length + j = i ∧ run[j]? = some row ∧
      ∀ next, rows[i + 1]? = some next → c + 1 < next.length → run[j + 1]? = some next := by
  let long : Row → Bool := fun row => decide (c + 1 < row.length)
  let front := rows.take i
  let back := rows.drop i
  obtain ⟨rest, following⟩ : ∃ rest, back = row :: rest := by
    obtain ⟨inside, rfl⟩ := List.getElem?_eq_some_iff.mp here
    exact ⟨_, List.drop_eq_getElem_cons inside⟩
  have length : (front.rdropWhile long).length + (front.rtakeWhile long).length = i := by
    rw [← List.length_append, List.rdropWhile_append_rtakeWhile, List.length_take]
    have inside := (List.getElem?_eq_some_iff.mp here).1
    omega
  refine ⟨front.rdropWhile long, front.rtakeWhile long ++ back.takeWhile long,
    back.dropWhile long, (front.rtakeWhile long).length, ?_, ⟨?_, ?_, ?_⟩, length, ?_, ?_⟩
  · rw [← List.append_assoc, List.rdropWhile_append_rtakeWhile, List.append_assoc,
      List.takeWhile_append_dropWhile, List.take_append_drop]
  · intro row member
    rcases List.mem_append.mp member with member | member
    · simpa [long] using List.mem_rtakeWhile_imp member
    · simpa [long] using List.mem_takeWhile_imp member
  · intro row member
    obtain ⟨some, rfl⟩ := List.mem_getLast?_eq_getLast member
    simpa [long] using List.rdropWhile_last_not long front some
  · intro row member
    have stops := List.head?_dropWhile_not long back
    simp_all [long]
  · simp [following, long, goes]
  · intro next there goesOn
    have second : back[1]? = some next := by simpa [back] using there
    obtain ⟨more, rfl⟩ : ∃ more, rest = next :: more := by
      cases rest with
      | nil => simp [following] at second
      | cons other more =>
          obtain rfl : other = next := by simpa [following] using second
          exact ⟨more, rfl⟩
    simp [following, long, goes, goesOn]

namespace Aligned

variable {rows : List Row} {pad : Nat → Nat → Nat} {lines : List String}

theorem getElem?_lines (aligned : Aligned rows pad lines) {i : Nat} {row : Row}
    (here : rows[i]? = some row) : lines[i]? = some (row.spread (pad i)) := by
  simp [aligned.spread, here]

/-- Where neighbouring rows both go on after a cell, their next cells begin below each other. -/
theorem below (aligned : Aligned rows pad lines) {i c : Nat} {row next : Row}
    (here : rows[i]? = some row) (there : rows[i + 1]? = some next) (goes : c + 1 < row.length)
    (goesOn : c + 1 < next.length) :
    ∃ rest rest', lines[i]? = some (row.lead (pad i) (c + 1) ++ row.cell (c + 1) ++ rest) ∧
      lines[i + 1]? = some (next.lead (pad (i + 1)) (c + 1) ++ next.cell (c + 1) ++ rest') ∧
      (row.lead (pad i) (c + 1)).length = (next.lead (pad (i + 1)) (c + 1)).length := by
  obtain ⟨rest, line, -⟩ := Row.exists_spread_eq (pad i) goes
  obtain ⟨rest', line', -⟩ := Row.exists_spread_eq (pad (i + 1)) goesOn
  refine ⟨rest, rest', by rw [aligned.getElem?_lines here, line],
    by rw [aligned.getElem?_lines there, line'],
    Row.length_lead_eq _ _ (by omega) (by omega) fun d before => ?_⟩
  obtain ⟨above, run, after, j, split, isRun, rfl, one, other⟩ :=
    exists_columnRun here (c := d) (by omega)
  obtain ⟨n, -, same⟩ := aligned.room d above run after split isRun
  obtain ⟨inside, rfl⟩ := List.getElem?_eq_some_iff.mp one
  obtain ⟨inside', rfl⟩ := List.getElem?_eq_some_iff.mp (other next there (by omega))
  rw [same j inside, Nat.add_assoc, same (j + 1) inside']

/-- A cell that is not empty has a space behind it if another one follows. -/
theorem apart (aligned : Aligned rows pad lines) {i c : Nat} {row : Row}
    (here : rows[i]? = some row) (goes : c + 1 < row.length) (filled : row.cell c ≠ "") :
    ∃ rest, lines[i]? = some (row.lead (pad i) c ++ row.cell c ++ " " ++ rest) := by
  obtain ⟨above, run, after, j, split, isRun, rfl, one, -⟩ := exists_columnRun here goes
  obtain ⟨n, room, same⟩ := aligned.room c above run after split isRun
  obtain ⟨inside, rfl⟩ := List.getElem?_eq_some_iff.mp one
  have wider := room.lt (List.mem_map_of_mem (List.getElem_mem inside)) filled
  obtain ⟨n, padded⟩ : ∃ n, pad (above.length + j) c = n + 1 :=
    Nat.exists_eq_add_one.mpr (by have := same j inside; omega)
  obtain ⟨_, line, -, more⟩ := Row.exists_spread_eq (pad (above.length + j))
    (Nat.lt_of_succ_lt goes)
  obtain ⟨rest, rfl⟩ := more goes
  refine ⟨spaces n ++ rest, ?_⟩
  rw [aligned.getElem?_lines here, line, padded, Row.spaces_succ]
  simp only [String.append_assoc]

end Aligned

/-! ## Alignment, column by column -/

namespace Columns

theorem continues_iff {row : Row} : continues row = true ↔ 1 < row.length := by
  match row with
  | [] | [_] | _ :: _ :: _ => simp [continues]

/-- The number of spaces behind the first cell of a row. -/
def padding (rows : List Row) (i : Nat) : Nat :=
  ((firstCells rows).getD i "").length - ((rows.getD i []).headD "").length

theorem First.eq_head {row : Row} {text : String} (first : First row text) :
    let n := text.length - (row.headD "").length
    text = row.headD "" ++ spaces n ∧ (continues row = false → n = 0) := by
  cases first with
  | only ends => simp [spaces]
  | padded n goes apart => simp [Row.length_spaces, goes]

theorem length_firstCells (rows : List Row) : (firstCells rows).length = rows.length :=
  (forall₂_firstCells rows).length_eq.symm

theorem firstCells_getElem? {rows : List Row} {i : Nat} {row : Row} (here : rows[i]? = some row) :
    (firstCells rows)[i]? = some (row.headD "" ++ spaces (padding rows i)) ∧
      (continues row = false → padding rows i = 0) := by
  obtain ⟨inside, rfl⟩ := List.getElem?_eq_some_iff.mp here
  obtain ⟨length, all⟩ := List.forall₂_iff_get.mp (forall₂_firstCells rows)
  have inside' : i < (firstCells rows).length := length ▸ inside
  obtain ⟨text, ends⟩ := (all i inside inside').eq_head
  have behind : padding rows i =
      (firstCells rows)[i].length - (rows[i].headD "").length := by
    simp [padding, inside, inside']
  simp only [List.get_eq_getElem, ← behind] at text ends
  exact ⟨by rw [List.getElem?_eq_getElem inside', text], ends⟩

/-- The first cells of a run do not depend on the rows around it. -/
theorem firstCells_append {before run after : List Row} (isRun : ColumnRun 0 before run after)
    (some : run ≠ []) :
    firstCells (before ++ run ++ after) = firstCells before ++ runCells run ++ firstCells after := by
  have goes (row : Row) (member : row ∈ run) : continues row = true :=
    continues_iff.mpr (isRun.goes row member)
  have ends {row : Row} (short : ¬0 + 1 < row.length) : continues row = false :=
    Bool.eq_false_iff.mpr fun long => short (continues_iff.mp long)
  have alone : run.splitBy (fun a b => continues a == continues b) = [run] := by
    refine List.splitBy_of_isChain some (List.Pairwise.isChain ?_)
    refine (List.pairwise_of_forall (R := fun _ _ => True) fun _ _ => trivial).imp_of_mem ?_
    intro a b here there _
    simp [goes a here, goes b there]
  have left (row : Row) (member : row ∈ before.getLast?) (next : Row)
      (there : next ∈ (run ++ after).head?) : (continues row == continues next) = false := by
    rw [List.head?_append_of_ne_nil _ some] at there
    simp [ends (isRun.first row member), goes next (List.mem_of_mem_head? there)]
  have right (row : Row) (member : row ∈ run.getLast?) (next : Row)
      (there : next ∈ after.head?) : (continues row == continues next) = false := by
    simp [ends (isRun.last next there), goes row (List.mem_of_mem_getLast? member)]
  simp only [firstCells, List.append_assoc]
  rw [List.splitBy_append left, List.splitBy_append right, alone]
  simp

theorem foldl_max_mem {ns : List Nat} (some : ns.foldl max 0 ≠ 0) : ns.foldl max 0 ∈ ns := by
  rw [List.foldl_max, Nat.zero_max] at some ⊢
  cases most : ns.max? with
  | none => simp [most] at some
  | some m => simpa [most] using List.max?_mem most

theorem room_width (run : List Row) : Room (run.map (·.headD "")) (width run) := by
  have bound : ∀ cell ∈ run.map (·.headD ""),
      cell.length ≤ (run.map fun row => (row.headD "").length).foldl max 0 := by
    intro cell member
    obtain ⟨row, known, rfl⟩ := List.mem_map.mp member
    exact le_foldl_max (.inr (List.mem_map_of_mem known))
  by_cases zero : (run.map fun row => (row.headD "").length).foldl max 0 = 0
  · simp only [width, zero]
    refine .none fun cell member => ?_
    have short := bound cell member
    rw [zero] at short
    exact String.length_eq_zero_iff.mp (Nat.le_zero.mp short)
  · obtain ⟨row, known, length⟩ := List.mem_map.mp (foldl_max_mem zero)
    simp only [width, if_neg zero]
    rw [← length] at bound zero ⊢
    exact .some (List.mem_map_of_mem known) (fun empty => zero (by rw [empty]; rfl)) bound

/-- A place in the middle of three parts. -/
theorem getD_middle {α : Type} (before middle after : List α) (d : α) {j : Nat}
    (inside : j < middle.length) :
    (before ++ middle ++ after).getD (before.length + j) d = middle[j] := by
  have behind : ¬before.length + j < before.length := by omega
  simp [List.getElem?_append, inside, behind]

theorem padding_run {before run after : List Row} (isRun : ColumnRun 0 before run after) {j : Nat}
    (inside : j < run.length) :
    (run[j].headD "").length + padding (before ++ run ++ after) (before.length + j) = width run := by
  have some : run ≠ [] := List.ne_nil_of_length_pos (by omega)
  have goes : continues run[j] = true :=
    continues_iff.mpr (isRun.goes _ (List.getElem_mem inside))
  have fits : (run[j].headD "").length ≤ width run := by
    by_cases filled : run[j].headD "" = ""
    · rw [filled]
      exact Nat.zero_le _
    · exact (length_lt_width (List.getElem_mem inside) filled).le
  have row := getD_middle before run after [] inside
  have text : (firstCells (before ++ run ++ after)).getD (before.length + j) "" =
      padTo (width run) (run[j].headD "") := by
    have filled : j < (runCells run).length := by simpa [runCells] using inside
    rw [firstCells_append isRun some, ← length_firstCells before, getD_middle _ _ _ _ filled]
    simp [runCells, goes]
  simp only [padding, row, text, padTo, String.length_append, String.length_ofList,
    List.length_replicate]
  omega

theorem lines_eq_mapIdx {n : Nat} {rows : List Row} (fits : ∀ row ∈ rows, row.length ≤ n) :
    lines n rows = rows.mapIdx fun i row =>
      row.spread fun c => padding (rows.map (List.drop c)) i := by
  induction n generalizing rows with
  | zero =>
      refine List.ext_getElem (by simp [lines]) fun i inside inside' => ?_
      have known : i < rows.length := by simpa using inside'
      have empty : rows[i] = [] :=
        List.eq_nil_of_length_eq_zero (Nat.le_zero.mp (fits _ (List.getElem_mem known)))
      simp [lines, empty, Row.spread]
  | succ n ih =>
      have fits' : ∀ row ∈ rows.map List.tail, row.length ≤ n := by
        intro _ member
        obtain ⟨row, known, rfl⟩ := List.mem_map.mp member
        have := fits row known
        rw [List.length_tail]
        omega
      apply List.ext_getElem?
      intro i
      rw [lines, ih fits', List.getElem?_zipWith]
      cases here : rows[i]? with
      | none => simp [here]
      | some row =>
          obtain ⟨first, ends⟩ := firstCells_getElem? here
          have drops (c : Nat) : (rows.map List.tail).map (List.drop c) =
              rows.map (List.drop (c + 1)) := by
            simp [List.map_map, Function.comp_def]
          have whole : rows.map (List.drop 0) = rows :=
            (List.map_congr_left fun _ _ => List.drop_zero).trans (List.map_id rows)
          simp only [first, List.getElem?_mapIdx, List.getElem?_map, here, Option.map_some, drops]
          rw [Row.spread_eq_head row (by simpa only [whole] using ends), whole]

end Columns

theorem ColumnRun.drop {c : Nat} {before run after : List Row}
    (isRun : ColumnRun c before run after) :
    ColumnRun 0 (before.map (List.drop c)) (run.map (List.drop c)) (after.map (List.drop c)) where
  goes := by
    intro _ member
    obtain ⟨row, known, rfl⟩ := List.mem_map.mp member
    have := isRun.goes row known
    simp only [List.length_drop]
    omega
  first := by
    intro _ member
    rw [List.getLast?_map] at member
    obtain ⟨row, known, rfl⟩ := Option.map_eq_some_iff.mp member
    have := isRun.first row known
    simp only [List.length_drop]
    omega
  last := by
    intro _ member
    rw [List.head?_map] at member
    obtain ⟨row, known, rfl⟩ := Option.map_eq_some_iff.mp member
    have := isRun.last row known
    simp only [List.length_drop]
    omega

theorem aligned_align (rows : List Row) :
    Aligned rows (fun i c => Columns.padding (rows.map (List.drop c)) i) (align rows) where
  spread := Columns.lines_eq_mapIdx fun _ member =>
    Columns.le_foldl_max (.inr (List.mem_map_of_mem member))
  room := by
    rintro c before run after rfl isRun
    have cells : (run.map (List.drop c)).map (·.headD "") = run.map (·.cell c) := by
      simp [Function.comp_def, Row.cell]
    refine ⟨Columns.width (run.map (List.drop c)), ?_, fun j inside => ?_⟩
    · rw [← cells]
      exact Columns.room_width _
    · have taken := Columns.padding_run isRun.drop (j := j) (by simpa using inside)
      simpa [Row.cell] using taken

/-- A table is laid out in columns: each cell of a run takes the same room. So cells of
neighbouring rows begin below each other where both rows go on before them, and a cell that is not
empty has a space behind it unless it is the last one. -/
theorem align_columns (rows : List Row) :
    ∃ pad, Aligned rows pad (align rows) ∧
      (∀ i c, ∀ row next : Row, rows[i]? = some row → rows[i + 1]? = some next →
        c + 1 < row.length → c + 1 < next.length → ∃ rest rest',
          (align rows)[i]? = some (row.lead (pad i) (c + 1) ++ row.cell (c + 1) ++ rest) ∧
          (align rows)[i + 1]? =
            some (next.lead (pad (i + 1)) (c + 1) ++ next.cell (c + 1) ++ rest') ∧
          (row.lead (pad i) (c + 1)).length = (next.lead (pad (i + 1)) (c + 1)).length) ∧
      ∀ i c, ∀ row : Row, rows[i]? = some row → c + 1 < row.length → row.cell c ≠ "" → ∃ rest,
        (align rows)[i]? = some (row.lead (pad i) c ++ row.cell c ++ " " ++ rest) := by
  have aligned := aligned_align rows
  exact ⟨_, aligned, fun _ _ _ _ here there goes goesOn => aligned.below here there goes goesOn,
    fun _ _ _ here goes filled => aligned.apart here goes filled⟩

/-- A row without cells ends all runs, a short one those of its missing columns, and a column of
empty cells takes no room. -/
example :
    align [["a", "bb", "c"], ["long", "b", "c", "d"], ["x", "y"], [], ["", "y", "z"], ["", ""]] =
      ["a    bb c", "long b  c d", "x    y", "", "y z", ""] := by
  decide +kernel

end GoSchema.Source
