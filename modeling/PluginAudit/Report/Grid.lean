import PluginAudit.Text.Lines
import PluginAudit.Text.Width

/-!
Grids of cells, drawn with lines between all rows and columns. A cell may have several lines; a
column is as wide as its widest line, and a row as high as its highest cell.
-/

namespace PluginAudit.Grid

abbrev Cell := List (List Char)

abbrev Row := List Cell

def cell (text : String) : Cell := Text.splitAt '\n' text.toList

def cellWidth (c : Cell) : Nat := (c.map Text.width).foldl max 0

def rowHeight (r : Row) : Nat := (r.map List.length).foldl max 0

/-- The greater width of each column; a column that one row lacks has the other's width. -/
def widen : (widths others : List Nat) → List Nat
  | [], others => others
  | widths, [] => widths
  | w :: ws, v :: vs => max w v :: widen ws vs

def columnWidths (rows : List Row) : List Nat :=
  rows.foldl (fun widths r => widen widths (r.map cellWidth)) []

def padded (width : Nat) (line : List Char) : List Char :=
  line ++ List.replicate (width - Text.width line) ' '

def rule (widths : List Nat) : List Char :=
  '+' :: widths.flatMap fun w => List.replicate (w + 2) '-' ++ ['+']

def rowLine (widths : List Nat) (r : Row) (i : Nat) : List Char :=
  '|' :: (widths.zip r).flatMap fun (w, lines) =>
    ' ' :: (padded w (lines[i]?.getD []) ++ [' ', '|'])

def rowLines (widths : List Nat) (r : Row) : List (List Char) :=
  (List.range (rowHeight r)).map (rowLine widths r)

def lines (rows : List Row) : List (List Char) :=
  let widths := columnWidths rows
  rule widths :: rows.flatMap fun r => rowLines widths r ++ [rule widths]

def render (rows : List (List String)) : String :=
  .ofList (Text.joinWith ['\n'] (lines (rows.map (·.map cell))))

end PluginAudit.Grid
