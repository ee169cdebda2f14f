import ImportAtlas.Console.Library

set_option autoImplicit false

/-!
# Tables on the screen

A table has a title, a heading row set off by heavy lines, and rows.  Each
column is as wide as its widest cell, with a space on either side; the title is
centred over the table, the odd space to the right.
-/

namespace ImportAtlas.Standard

/-- The strokes of a line: at its left end, between columns, at its right end, and along it. -/
structure Strokes where
  left : String
  middle : String
  right : String
  along : Char
  deriving DecidableEq, Repr

namespace Table

/-- So many copies of a character. -/
def repeated (n : Nat) (c : Char) : String :=
  String.ofList (List.replicate n c)

/-- A text with spaces on the side that the alignment leaves free. -/
def pad (alignment : Alignment) (width : Nat) (text : String) : String :=
  match alignment with
  | .left => text ++ repeated (width - text.length) ' '
  | .right => repeated (width - text.length) ' ' ++ text

/-- A text in the middle of a width. -/
def centre (width : Nat) (text : String) : String :=
  pad .left width (repeated ((width - text.length) / 2) ' ' ++ text)

/-- The width of a column's widest cell. -/
def columnWidth (t : Table) (index : Nat) (column : Column) : Nat :=
  (t.rows.map fun row => (row[index]?.getD "").length).foldl max column.heading.length

/-- The widths of the columns. -/
def widths (t : Table) : List Nat :=
  t.columns.mapIdx (columnWidth t)

/-- A line without cells. -/
def ruleLine (t : Table) (s : Strokes) : String :=
  s.left ++ s.middle.intercalate ((widths t).map fun w => repeated (w + 2) s.along) ++ s.right

/-- A line of cells between bars. -/
def cellLine (t : Table) (bar : String) (cells : List String) : String :=
  let padded := (t.columns.zip ((widths t).zip cells)).map fun (column, width, cell) =>
    " " ++ pad column.alignment width cell ++ " "
  bar ++ bar.intercalate padded ++ bar

/-- The lines of a table. -/
def lines (t : Table) : List String :=
  let top := ruleLine t ⟨"┏", "┳", "┓", '━'⟩
  [centre top.length t.title, top, cellLine t "┃" (t.columns.map Column.heading),
    ruleLine t ⟨"┡", "╇", "┩", '━'⟩] ++
  t.rows.map (cellLine t "│") ++ [ruleLine t ⟨"└", "┴", "┘", '─'⟩]

end Table

end ImportAtlas.Standard
