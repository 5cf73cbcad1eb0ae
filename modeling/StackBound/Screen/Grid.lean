import StackBound.Screen.Wrap

/-! Tables with a frame: a header row, a rule below it, and the rows. Each column is as wide as its
widest cell, and each row as high as its highest. -/
namespace StackBound
namespace Screen

structure Column where
  title : Bytes
  /-- Whether the cells below the title stand on the right. -/
  right : Bool
  deriving DecidableEq, Repr

structure Grid where
  columns : List Column
  rows : List (List Bytes)
  /-- The spaces on either side of a cell. -/
  margin : Nat
  deriving DecidableEq, Repr

namespace Grid

def ofTitles (titles : List String) (rows : List (List Bytes)) (margin : Nat) : Grid :=
  ⟨titles.map fun title => ⟨utf8 title, false⟩, rows, margin⟩

/-- All that stands in the column at an index, its title first. -/
def column (g : Grid) (index : Nat) (c : Column) : List Bytes :=
  c.title :: g.rows.map fun row => row.getD index []

def widths (g : Grid) : List Nat :=
  g.columns.mapIdx fun index c => ((g.column index c).map widest).foldl max 0

/-- A line of the frame, by its left end, its fill, its joints and its right end. -/
def frame (g : Grid) (widths : List Nat) (left fill joint right : String) : Bytes :=
  utf8 left ++
    Bytes.join (utf8 joint) (widths.map fun width =>
      (List.replicate (width + 2 * g.margin) (utf8 fill)).flatten) ++
    utf8 right

/-- How many lines a text takes in a column. Tabs are counted here before they become spaces, so the
text may need more in the end; what is over is not shown. -/
def textHeight (width : Nat) (text : Bytes) : Nat :=
  if width = 0 then 1
  else (((plainEnds [] text).split newline).map (lineCount width)).foldl (· + ·) 0

def rowHeight (widths : List Nat) (row : List Bytes) : Nat :=
  (widths.mapIdx fun index width => textHeight width (row.getD index [])).foldl max 1

/-- The lines of a cell, with its margins: as many as the row has, and none wider than the column. -/
def cell (g : Grid) (width height : Nat) (right : Bool) (text : Bytes) : List Bytes :=
  let margin := Bytes.spaces g.margin
  let full := width + 2 * g.margin
  let set := ((wrapped width (plainEnds [] (untabbed text))).split newline).map (margin ++ · ++ margin)
  let lines := set ++ List.replicate (height - set.length) []
  let wide := (lines.map Bytes.cells).foldl max full
  let fill := if right then paddedLeft wide else padded wide
  (lines.map fun line => cut full (fill line)).take height

def beside (blocks : List (List Bytes)) (height : Nat) : List Bytes :=
  let wide := blocks.map fun lines => (lines, (lines.map Bytes.cells).foldl max 0)
  (List.range height).map fun i => wide.flatMap fun (lines, width) => padded width (lines.getD i [])

/-- The lines of a row; each cell goes to the side that its column asks for. -/
def row (g : Grid) (widths : List Nat) (right : List Bool) (row : List Bytes) : List Bytes :=
  let height := rowHeight widths row
  let bar := List.replicate height (utf8 "│")
  let cells := widths.mapIdx fun index width =>
    g.cell width height (right.getD index false) (row.getD index [])
  beside (bar :: cells.flatMap fun cell => [cell, bar]) height

def lines (g : Grid) : List Bytes :=
  let widths := g.widths
  let all := [g.frame widths "╭" "─" "┬" "╮"] ++ g.row widths [] (g.columns.map (·.title)) ++
    [g.frame widths "├" "─" "┼" "┤"] ++
    g.rows.flatMap (g.row widths (g.columns.map (·.right))) ++ [g.frame widths "╰" "─" "┴" "╯"]
  all.map (padded ((all.map Bytes.cells).foldl max 0))

def text (g : Grid) : Bytes := Bytes.join [newline] g.lines

end Grid
end Screen
end StackBound
