import SearchCompiler.Text.Columns
import SearchCompiler.Text.Pieces

/-!
# Tables

A table drawn with lines: a heading, a double line, and rows without lines between them. A column is
as wide as its widest line, and a cell may have several lines.
-/

namespace SearchCompiler.Cli.Table

/-- A cell by its lines. -/
abbrev Cell := List String

def cellOf (text : String) : Cell :=
  (Text.cutAt '\n' text.toList).map String.ofList

def cellWidth (cell : Cell) : Nat :=
  (cell.map Text.columnsOf).foldl max 0

def widths : List (List Cell) → List Nat
  | [] => []
  | row :: rest => pointwiseMax (row.map cellWidth) (widths rest)
where
  /-- The greater of two widths, column by column. -/
  pointwiseMax : List Nat → List Nat → List Nat
    | [], ns => ns
    | ms, [] => ms
    | m :: ms, n :: ns => max m n :: pointwiseMax ms ns

/-- A line across the table. -/
def rule (left fill crossing right : String) (columns : List Nat) : String :=
  left ++ Text.joinTexts crossing (columns.map fun w => String.join (List.replicate (w + 2) fill)) ++
    right

def rowLine (columns : List Nat) (texts : List String) : String :=
  "│" ++ Text.joinTexts "┆" (columns.zipWith (fun w text =>
    " " ++ text ++ Text.blanks (w - Text.columnsOf text) ++ " ") texts) ++ "│"

/-- The lines of a row; cells with fewer lines are filled up. -/
def rowLines (columns : List Nat) (row : List Cell) : List String :=
  let height := (row.map List.length).foldl max 0
  (List.range height).map fun (i : Nat) => rowLine columns (row.map fun cell => (cell[i]?).getD "")

def lines (heading : List String) (rows : List (List String)) : List String :=
  let head := heading.map cellOf
  let body := rows.map (·.map cellOf)
  let columns := widths (head :: body)
  [rule "┌" "─" "┬" "┐" columns] ++ rowLines columns head ++ [rule "╞" "═" "╪" "╡" columns] ++
    body.flatMap (rowLines columns) ++ [rule "└" "─" "┴" "┘" columns]

end SearchCompiler.Cli.Table
