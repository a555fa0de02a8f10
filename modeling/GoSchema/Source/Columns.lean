/-! # Columns of cells

Rows of cells are aligned column by column. Where neighbouring rows all have a further cell, the
cells of a column are padded to one character more than the longest of them; a column of empty
cells takes no room. The last cell of a row is never padded.
-/

namespace GoSchema.Source

abbrev Row := List String

namespace Columns

/-- Is the first cell of a row followed by another one? -/
def continues : Row → Bool
  | _ :: _ :: _ => true
  | _ => false

/-- The width of the first column of rows that go on. -/
def width (rows : List Row) : Nat :=
  let longest := (rows.map fun row => (row.headD "").length).foldl max 0
  if longest = 0 then 0 else longest + 1

def padTo (width : Nat) (cell : String) : String :=
  cell ++ String.ofList (List.replicate (width - cell.length) ' ')

/-- The first cells of rows of which all go on or none does. -/
def runCells (run : List Row) : List String :=
  let w := width run
  run.map fun row => if continues row then padTo w (row.headD "") else row.headD ""

/-- The first cells of all rows, padded in the longest possible runs of rows that go on. -/
def firstCells (rows : List Row) : List String :=
  (rows.splitBy fun a b => continues a == continues b).flatMap runCells

/-- The lines that the first `n` cells of each row make. -/
def lines : Nat → List Row → List String
  | 0, rows => rows.map fun _ => ""
  | n + 1, rows => List.zipWith (· ++ ·) (firstCells rows) (lines n (rows.map List.tail))

end Columns

def align (rows : List Row) : List String :=
  Columns.lines ((rows.map List.length).foldl max 0) rows

end GoSchema.Source
