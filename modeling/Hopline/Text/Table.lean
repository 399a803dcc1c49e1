import Hopline.Text.Width

/-! Tables drawn with box characters: a frame, a double line below the heading,
dashed lines between rows and between columns. Each column is as wide as its widest
line, and a cell may have several lines. -/

namespace Hopline.Text

structure Rule where
  left : String
  fill : String
  crossing : String
  right : String

def Rule.top : Rule := ⟨"┌", "─", "┬", "┐"⟩

def Rule.underHeading : Rule := ⟨"╞", "═", "╪", "╡"⟩

def Rule.betweenRows : Rule := ⟨"├", "╌", "┼", "┤"⟩

def Rule.bottom : Rule := ⟨"└", "─", "┴", "┘"⟩

def copies (count : Nat) (text : String) : String := String.join (List.replicate count text)

/-- A rule across columns of the given widths, padding included. -/
def Rule.draw (rule : Rule) (widths : List Nat) : String :=
  rule.left
    ++ String.intercalate rule.crossing (widths.map fun width => copies (width + 2) rule.fill)
    ++ rule.right

structure Table where
  heading : List String
  rows : List (List String)

namespace Table

def cellLines (cell : String) : List String := cell.splitOn "\n"

def cellWidth (cell : String) : Nat := ((cellLines cell).map width).foldl max 0

def widths (table : Table) : List Nat :=
  table.rows.foldl (fun widths row => List.zipWith max widths (row.map cellWidth))
    (table.heading.map cellWidth)

def padded (columns : Nat) (line : String) : String :=
  " " ++ line ++ copies (columns - width line) " " ++ " "

def drawRow (widths : List Nat) (row : List String) : List String :=
  let cells := row.map cellLines
  let height := (cells.map List.length).foldl max 0
  (List.range height).map fun line =>
    let parts := List.zipWith (fun width cell => padded width (cell.getD line "")) widths cells
    "│" ++ String.intercalate "┆" parts ++ "│"

def lines (table : Table) : List String :=
  let widths := table.widths
  let body := (table.rows.map (drawRow widths)).intersperse [Rule.betweenRows.draw widths]
  [Rule.top.draw widths] ++ drawRow widths table.heading ++ [Rule.underHeading.draw widths]
    ++ body.flatten ++ [Rule.bottom.draw widths]

def render (table : Table) : String := String.intercalate "\n" table.lines

end Table

end Hopline.Text
