import Parley.Text.Shaping
import Parley.Text.Split

/-!
# Tables

A table is drawn with ASCII lines. Every column is as wide as its widest line, with a blank on
either side, and a cell may have several lines.
-/

namespace Parley

/-- The lines of a cell; there is at least an empty one. -/
abbrev Cell := List (List Char)

def Cell.ofText (text : List Char) : Cell :=
  Text.splitOn '\n' text

/-- A table before it is drawn. -/
structure Table where
  header : List Cell
  rows : List (List Cell)

namespace Table

/-- The columns that the widest line of a cell takes. -/
def cellWidth (cell : Cell) : Nat :=
  cell.foldl (fun width line => max width (Text.textColumns line)) 0

/-- The larger width of each column; cells behind the end of the other list count as empty. -/
def maxWidths : List Nat → List Nat → List Nat
  | [], ws => ws
  | vs, [] => vs
  | v :: vs, w :: ws => max v w :: maxWidths vs ws

/-- The width of each column, for the header and all rows. -/
def widths (t : Table) : List Nat :=
  (t.header :: t.rows).foldl (fun widths row => maxWidths widths (row.map cellWidth)) []

/-! ### Lines -/

/-- A line across the table: a dash for every column and every padding blank. -/
def line (left dash cross right : Char) (widths : List Nat) : List Char :=
  left :: Text.joinWith [cross] (widths.map fun width => List.replicate (width + 2) dash) ++ [right]

/-- A text on the left of its cell, with blanks up to the width and one on either side. -/
def pad (width : Nat) (text : List Char) : List Char :=
  ' ' :: text ++ List.replicate (width - Text.textColumns text) ' ' ++ [' ']

def rowHeight (row : List Cell) : Nat :=
  row.foldl (fun height cell => max height cell.length) 0

/-- The lines of a row. A cell with fewer lines than the row is blank below. -/
def rowLines (widths : List Nat) (row : List Cell) : List (List Char) :=
  (List.range (rowHeight row)).map fun i =>
    '|' :: Text.joinWith ['|'] (widths.zipWith (fun width cell => pad width (cell[i]?.getD [])) row)
      ++ ['|']

/-- The rows, set apart by lines. -/
def bodyLines (widths : List Nat) : List (List Cell) → List (List Char)
  | [] => []
  | [row] => rowLines widths row
  | row :: rows => rowLines widths row ++ line '|' '-' '+' '|' widths :: bodyLines widths rows

/-- All lines of the drawn table. The header is set apart by a double line. -/
def lines (t : Table) : List (List Char) :=
  let widths := t.widths
  let border := line '+' '-' '+' '+' widths
  border :: rowLines widths t.header ++ line '+' '=' '=' '+' widths ::
    bodyLines widths t.rows ++ [border]

def text (t : Table) : List Char :=
  t.lines.flatMap fun line => line ++ ['\n']

end Table

end Parley
