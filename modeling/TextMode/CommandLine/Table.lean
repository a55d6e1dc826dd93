import TextMode.Text.Basic

/-!
# Tables

A table has a title, centred above it, and columns with a heading.  A column is as wide
as its widest line and one space on either side.  A cell may have several lines; the
shorter cells of its row are filled up below.
-/

namespace TextMode

inductive Alignment where
  | left
  | right
  deriving DecidableEq, Repr

structure Column where
  heading : Text
  alignment : Alignment
  deriving DecidableEq, Repr

structure Table where
  title : Text
  columns : List Column
  rows : List (List Text)
  deriving DecidableEq, Repr

namespace Table

/-- The lines of a cell, one more than it has line feeds. -/
def lines (cell : Text) : List Text :=
  Text.splitOn '\n' cell

/-- Control characters take no room. -/
def takesRoom (c : Char) : Bool :=
  0x20 ≤ c.toNat && !(0x7f ≤ c.toNat && c.toNat ≤ 0x9f)

def lineWidth (line : Text) : Nat :=
  line.countP takesRoom

def cellWidth (cell : Text) : Nat :=
  (lines cell).foldl (fun width line => max width (lineWidth line)) 0

/-- The widths of the columns without the spaces on their sides. -/
def widths (table : Table) : List Nat :=
  table.rows.foldl (fun widths row => widths.zipWith max (row.map cellWidth))
    (table.columns.map fun column => cellWidth column.heading)

def spaces (count : Nat) : Text :=
  List.replicate count ' '

def pad (alignment : Alignment) (width : Nat) (line : Text) : Text :=
  let fill := spaces (width - lineWidth line)
  match alignment with
  | .left => ' ' :: line ++ fill ++ [' ']
  | .right => ' ' :: fill ++ line ++ [' ']

def centre (width : Nat) (line : Text) : Text :=
  let excess := width - lineWidth line
  spaces (excess / 2) ++ line ++ spaces (excess - excess / 2)

/-- A line made of the parts in the columns, with the characters before, between and
behind them. -/
def frame (start between stop : Char) (parts : List Text) : Text :=
  start :: [between].intercalate parts ++ [stop]

def ruler (start between stop fill : Char) (widths : List Nat) : Text :=
  frame start between stop (widths.map fun width => List.replicate (width + 2) fill)

/-- The line with the given number of each cell. -/
def rowLine (between : Char) (layout : List (Alignment × Nat)) (row : List (List Text))
    (number : Nat) : Text :=
  frame between between between
    (layout.zipWith (fun column cell => pad column.1 column.2 ((cell[number]?).getD [])) row)

def rowLines (between : Char) (layout : List (Alignment × Nat)) (row : List Text) :
    List Text :=
  let cells := row.map lines
  let height := cells.foldl (fun height cell => max height cell.length) 0
  (List.range height).map (rowLine between layout cells)

/-- The lines of a whole table. -/
def render (table : Table) : List Text :=
  let widths := table.widths
  let layout := (table.columns.map Column.alignment).zip widths
  let top := ruler '┏' '┳' '┓' '━' widths
  [centre (lineWidth top) table.title, top] ++
    rowLines '┃' layout (table.columns.map Column.heading) ++
    [ruler '┡' '╇' '┩' '━' widths] ++
    table.rows.flatMap (rowLines '│' layout) ++
    [ruler '└' '┴' '┘' '─' widths]

end Table

end TextMode
