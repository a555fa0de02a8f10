import GoSchema.Proofs.Source.Alignment

/-! # Alignment with a table of widths

Alignment step by step, on a table that has a width for each cell. All widths are zero at first.
Each column is then gone through row by row; where a run of rows ends, its width is entered for all
of its rows. The lines that are written with this table are the ones of the columns.
-/

namespace GoSchema.Source

namespace WidthTable

/-- The first index from `i` on whose row does not go on after the cell `c`. -/
def endOfRun (rows : List Row) (c i : Nat) : Nat :=
  if inside : i < rows.length then
    if c + 1 < rows[i].length then endOfRun rows c (i + 1) else i
  else i
termination_by rows.length - i

theorem le_endOfRun (rows : List Row) (c i : Nat) : i ≤ endOfRun rows c i := by
  induction i using endOfRun.induct rows c with
  | case1 i inside goes ih =>
      rw [endOfRun, dif_pos inside, if_pos goes]
      omega
  | case2 i inside ends => rw [endOfRun, dif_pos inside, if_neg ends]
  | case3 i outside => rw [endOfRun, dif_neg outside]

theorem lt_endOfRun {rows : List Row} {c i : Nat} (inside : i < rows.length)
    (goes : c + 1 < rows[i].length) : i < endOfRun rows c i := by
  rw [endOfRun, dif_pos inside, if_pos goes]
  exact le_endOfRun rows c (i + 1)

/-- Enter a width in a column, from the row `start` to the one before `stop`. -/
def enter (c width start stop : Nat) (widths : List (List Nat)) : List (List Nat) :=
  widths.mapIdx fun i ws => if start ≤ i ∧ i < stop then ws.set c width else ws

/-- The width of the cells `c` of rows that all go on after it. -/
def runWidth (c : Nat) (run : List Row) : Nat :=
  let widest := (run.map fun row => (row.cell c).length).foldl max 0
  if widest = 0 then 0 else widest + 1

/-- Go through a column from the row `i` on. -/
def enterColumn (rows : List Row) (c i : Nat) (widths : List (List Nat)) : List (List Nat) :=
  if inside : i < rows.length then
    if c + 1 < rows[i].length then
      let stop := endOfRun rows c i
      let width := runWidth c ((rows.take stop).drop i)
      enterColumn rows c stop (enter c width i stop widths)
    else enterColumn rows c (i + 1) widths
  else widths
termination_by rows.length - i
decreasing_by
  · have further := lt_endOfRun inside ‹_›
    omega
  · omega

def ofRows (rows : List Row) : List (List Nat) :=
  let zeros := rows.map fun row => List.replicate row.length 0
  let columns := (rows.map List.length).foldl max 0
  (List.range columns).foldl (fun widths c => enterColumn rows c 0 widths) zeros

/-- Write the cells of a row one after the other, each but the last up to its width. -/
def line (row : Row) (widths : List Nat) : String :=
  row.zipIdx.foldl
    (fun line (cell, c) =>
      let line := line ++ cell
      if c + 1 < row.length then line ++ spaces (widths.getD c 0 - cell.length) else line)
    ""

def lines (rows : List Row) : List String :=
  List.zipWith line rows (ofRows rows)

/-! ## One column -/

/-- The room that a cell takes with its padding. -/
def room (rows : List Row) (c i : Nat) : Nat :=
  ((rows.getD i []).cell c).length + Columns.padding (rows.map (List.drop c)) i

theorem endOfRun_append (c : Nat) (done rest : List Row) :
    endOfRun (done ++ rest) c done.length =
      done.length + (rest.takeWhile (c + 1 < ·.length)).length := by
  induction rest generalizing done with
  | nil => simp [endOfRun]
  | cons row rest ih =>
      rw [endOfRun]
      by_cases goes : c + 1 < row.length
      · have next := ih (done ++ [row])
        rw [← List.append_cons, List.length_append, List.length_singleton] at next
        simp [goes, next, Nat.add_assoc, Nat.add_comm 1]
      · simp [goes]

theorem room_eq {c : Nat} {before run after : List Row} (isRun : ColumnRun c before run after)
    {j : Nat} (inside : j < run.length) :
    room (before ++ run ++ after) c (before.length + j) = runWidth c run := by
  have taken := Columns.padding_run isRun.drop (j := j) (by simpa using inside)
  simp only [List.getElem_map, List.length_map, ← List.map_append] at taken
  rw [room, Columns.getD_middle before run after [] inside]
  simpa [Row.cell, runWidth, Columns.width, Function.comp_def] using taken

/-- The widths of a row after the column has been gone through from the row `start` on. -/
def entered (rows : List Row) (c start i : Nat) (ws : List Nat) : List Nat :=
  if start ≤ i ∧ c + 1 < (rows.getD i []).length then ws.set c (room rows c i) else ws

/-- A column can be gone through from here on: no run is cut in two. -/
def Edge (c : Nat) (done rest : List Row) : Prop :=
  (∀ row ∈ done.getLast?, ¬c + 1 < row.length) ∨ ∀ row ∈ rest.head?, ¬c + 1 < row.length

theorem getElem?_enter (c width start stop : Nat) (widths : List (List Nat)) (k : Nat) :
    (enter c width start stop widths)[k]? =
      widths[k]?.map fun ws => if start ≤ k ∧ k < stop then ws.set c width else ws := by
  simp [enter]

/-- Rows that begin with one that goes on begin with a run. -/
theorem exists_run {c : Nat} {done rest : List Row} (edge : Edge c done rest) {row : Row}
    (first : rest.head? = some row) (goes : c + 1 < row.length) :
    ∃ run after, rest = run ++ after ∧ run ≠ [] ∧ ColumnRun c done run after ∧
      endOfRun (done ++ rest) c done.length = (done ++ run).length := by
  let long : Row → Bool := fun row => c + 1 < row.length
  have start : ∀ row ∈ done.getLast?, ¬c + 1 < row.length := by
    rcases edge with start | ends
    · exact start
    · exact absurd goes (ends row first)
  refine ⟨rest.takeWhile long, rest.dropWhile long, (List.takeWhile_append_dropWhile).symm, ?_,
    ⟨?_, start, ?_⟩, ?_⟩
  · obtain ⟨rest, rfl⟩ := List.head?_eq_some_iff.mp first
    simp [long, goes]
  · intro row member
    simpa [long] using List.mem_takeWhile_imp member
  · intro row member
    have stops := List.head?_dropWhile_not long rest
    simp_all [long]
  · rw [endOfRun_append, List.length_append]

theorem entered_run {c : Nat} {done run after : List Row} (isRun : ColumnRun c done run after)
    (k : Nat) (ws : List Nat) :
    entered (done ++ run ++ after) c (done ++ run).length k
        (if done.length ≤ k ∧ k < (done ++ run).length then ws.set c (runWidth c run) else ws) =
      entered (done ++ run ++ after) c done.length k ws := by
  rw [List.length_append]
  by_cases inside : done.length ≤ k ∧ k < done.length + run.length
  · obtain ⟨j, rfl⟩ := Nat.exists_eq_add_of_le inside.1
    have member : j < run.length := by omega
    have row := Columns.getD_middle done run after [] member
    have goes := isRun.goes _ (List.getElem_mem member)
    have later : ¬done.length + run.length ≤ done.length + j := by omega
    rw [if_pos inside, entered, if_neg (fun both => later both.1), entered, row,
      if_pos ⟨inside.1, goes⟩, room_eq isRun member]
  · rw [if_neg inside, entered, entered]
    have same : done.length + run.length ≤ k ↔ done.length ≤ k := by omega
    simp only [same]

theorem entered_cons {c : Nat} {done rest : List Row} {row : Row} (ends : ¬c + 1 < row.length)
    (k : Nat) (ws : List Nat) :
    entered (done ++ row :: rest) c (done.length + 1) k ws =
      entered (done ++ row :: rest) c done.length k ws := by
  rw [entered, entered]
  by_cases here : k = done.length
  · subst here
    simp [ends]
  · have same : done.length + 1 ≤ k ↔ done.length ≤ k := by omega
    simp only [same]

theorem entered_length (rows : List Row) (c k : Nat) (ws : List Nat) :
    entered rows c rows.length k ws = ws := by
  refine if_neg fun ⟨behind, goes⟩ => ?_
  simp [List.getElem?_eq_none behind] at goes

/-- From an edge on, a column is entered in the rows that go on, each with the room of its cell. -/
theorem getElem?_enterColumn {c : Nat} {done rest : List Row} (edge : Edge c done rest)
    (widths : List (List Nat)) (k : Nat) :
    (enterColumn (done ++ rest) c done.length widths)[k]? =
      widths[k]?.map (entered (done ++ rest) c done.length k) := by
  -- a run is passed in one go, so the induction is on the number of rows that are left
  induction size : rest.length using Nat.strongRecOn generalizing done rest widths with
  | ind size ih =>
  subst size
  cases rest with
  | nil =>
      rw [List.append_nil, enterColumn, dif_neg (Nat.lt_irrefl _), funext (entered_length done c k)]
      simp
  | cons row rest =>
      have inside : done.length < (done ++ row :: rest).length := by simp
      have here : (done ++ row :: rest)[done.length] = row := by simp
      rw [enterColumn, dif_pos inside, here]
      by_cases goes : c + 1 < row.length
      · obtain ⟨run, after, split, some, isRun, stop⟩ := exists_run edge rfl goes
        have fewer : after.length < (row :: rest).length := by
          rw [split, List.length_append]
          have := List.length_pos_of_ne_nil some
          omega
        have whole : done ++ row :: rest = done ++ run ++ after := by
          rw [split, List.append_assoc]
        simp only [if_pos goes]
        rw [stop, whole, List.take_left, List.drop_left, ih _ fewer (.inr isRun.last) _ rfl,
          getElem?_enter, Option.map_map]
        exact congrArg (widths[k]?.map ·) (funext (entered_run isRun k))
      · have ends : ∀ row' ∈ (done ++ [row]).getLast?, ¬c + 1 < row'.length := by simpa using goes
        have next := ih _ (Nat.lt_succ_self rest.length) (.inl ends) widths rfl
        rw [← List.append_cons, List.length_append, List.length_singleton] at next
        rw [if_neg goes, next, funext (entered_cons goes k)]

/-! ## All columns -/

/-- The widths of a row when the first `n` columns have been gone through. -/
def rowWidths (rows : List Row) (n i : Nat) (row : Row) : List Nat :=
  row.mapIdx fun c _ => if c < n ∧ c + 1 < row.length then room rows c i else 0

theorem entered_rowWidths {rows : List Row} {i : Nat} {row : Row} (here : rows[i]? = some row)
    (n : Nat) : entered rows n 0 i (rowWidths rows n i row) = rowWidths rows (n + 1) i row := by
  have known : rows.getD i [] = row := by simp [here]
  rw [entered, known]
  apply List.ext_getElem?
  intro c
  by_cases goes : n + 1 < row.length
  · rw [if_pos ⟨Nat.zero_le i, goes⟩, List.getElem?_set]
    by_cases same : n = c
    · subst same
      have inside : n < row.length := by omega
      simp [rowWidths, goes, inside]
    · have sooner : c < n + 1 ↔ c < n := by omega
      rw [if_neg same]
      simp only [rowWidths, List.getElem?_mapIdx, sooner]
  · rw [if_neg fun both => goes both.2]
    have sooner : (c < n + 1 ∧ c + 1 < row.length) ↔ (c < n ∧ c + 1 < row.length) := by omega
    simp only [rowWidths, List.getElem?_mapIdx, sooner]

theorem foldl_enterColumn (rows : List Row) (n i : Nat) :
    ((List.range n).foldl (fun widths c => enterColumn rows c 0 widths)
        (rows.map fun row => List.replicate row.length 0))[i]? =
      rows[i]?.map (rowWidths rows n i) := by
  induction n with
  | zero =>
      have zeros (row : Row) : rowWidths rows 0 i row = List.replicate row.length 0 := by
        simp [rowWidths, List.mapIdx_eq_replicate_iff]
      simp [funext zeros]
  | succ n ih =>
      have edge : Edge n [] rows := .inl (by simp)
      rw [List.range_succ, List.foldl_append, List.foldl_cons, List.foldl_nil]
      refine (getElem?_enterColumn edge _ i).trans ?_
      rw [ih, Option.map_map, List.nil_append]
      cases here : rows[i]? with
      | none => rfl
      | some row => exact congrArg some (entered_rowWidths here n)

/-! ## The lines -/

theorem foldl_zipIdx (write : String → Nat → String) (row : Row) (before : String) (n : Nat) :
    (row.zipIdx n).foldl (fun line (cell, c) => line ++ write cell c) before =
      before ++ String.join (row.mapIdx fun c cell => write cell (n + c)) := by
  induction row generalizing before n with
  | nil => simp
  | cons cell row ih =>
      have next (c : Nat) : n + 1 + c = n + (c + 1) := by omega
      simp [ih, List.mapIdx_cons, String.append_assoc, next]

theorem line_eq_spread (row : Row) (widths : List Nat) :
    line row widths = row.spread fun c => widths.getD c 0 - (row.cell c).length := by
  let write (cell : String) (c : Nat) : String :=
    if c + 1 < row.length then cell ++ spaces (widths.getD c 0 - cell.length) else cell
  have step : (fun (line : String) (piece : String × Nat) =>
      if piece.2 + 1 < row.length then
        line ++ piece.1 ++ spaces (widths.getD piece.2 0 - piece.1.length)
      else line ++ piece.1) = fun line piece => line ++ write piece.1 piece.2 := by
    funext line piece
    simp only [write]
    split
    · rw [String.append_assoc]
    · rfl
  have cells : (row.mapIdx fun c cell => write cell (0 + c)) = row.mapIdx fun c cell =>
      if c + 1 < row.length then cell ++ spaces (widths.getD c 0 - (row.cell c).length)
      else cell := by
    rw [List.mapIdx_eq_mapIdx_iff]
    intro c inside
    simp [write, Row.cell, inside]
  rw [line, step, foldl_zipIdx write, Row.spread, String.empty_append, cells]

/-- The lines that are written with the table of widths are the ones of the columns. -/
theorem lines_eq_align (rows : List Row) : lines rows = align rows := by
  have fits : ∀ row ∈ rows, row.length ≤ (rows.map List.length).foldl max 0 :=
    fun row member => Columns.le_foldl_max (.inr (List.mem_map_of_mem member))
  rw [align, Columns.lines_eq_mapIdx fits]
  apply List.ext_getElem?
  intro i
  rw [lines, ofRows, List.getElem?_zipWith, foldl_enterColumn, List.getElem?_mapIdx]
  cases here : rows[i]? with
  | none => rfl
  | some row =>
      refine congrArg some ((line_eq_spread _ _).trans (Row.spread_congr fun c goes => ?_))
      have below : c < (rows.map List.length).foldl max 0 :=
        Nat.lt_of_lt_of_le (Nat.lt_of_succ_lt goes) (fits row (List.mem_of_getElem? here))
      simp [rowWidths, Nat.lt_of_succ_lt goes, goes, below, room, here]

end WidthTable

end GoSchema.Source
