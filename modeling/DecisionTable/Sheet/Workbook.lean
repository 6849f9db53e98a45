import DecisionTable.Sheet.Grid

/-! # Worksheets of a workbook

What a spreadsheet program stores in a cell, and the grid of a worksheet. The rectangle of a
worksheet covers all stored cells, even those whose text is empty.
-/

namespace DecisionTable

/-- How a stored cell is to be read. -/
inductive StoredKind where
  /-- A cell that has a place and nothing else. -/
  | blank
  | text
  | number
  | bool
  /-- An error value such as `#DIV/0!`. -/
  | fault
  /-- A date or duration that is written out. -/
  | iso
  /-- A date as a day number. -/
  | date
  deriving DecidableEq, Repr

/-- A stored cell. -/
structure StoredCell where
  position : Position
  kind : StoredKind
  text : String
  deriving DecidableEq, Repr

/-- The cells of a worksheet. -/
abbrev Worksheet := List StoredCell

/-- A workbook: its worksheets in order. -/
abbrev Workbook := List Worksheet

namespace StoredCell

/-- The value of a stored cell. -/
def value? (c : StoredCell) : Option CellValue :=
  match c.kind with
  | .blank => none
  | .text => if c.text.isEmpty then none else some (.text c.text)
  | .number | .date => (Decimal.read? c.text.toList).map .number
  | .bool => some (.bool (c.text == "1"))
  | .fault | .iso => some (.text c.text)

/-- The cell of a stored cell. -/
def cell? (c : StoredCell) : Option Cell := c.value?.map (⟨c.position, ·⟩)

end StoredCell

namespace Worksheet

/-- The least of some numbers, where there is one. -/
def least (first : UInt32) (others : List UInt32) : UInt32 :=
  others.foldl (fun a b => if b < a then b else a) first

/-- The smallest rectangle around the cells that are not blank. -/
def extent? (sheet : Worksheet) : Option Extent :=
  match (sheet.filter (·.kind != .blank)).map (·.position) with
  | [] => none
  | p :: rest =>
    some ⟨⟨least p.row (rest.map (·.row)), least p.column (rest.map (·.column))⟩,
      ⟨Grid.largest ((p :: rest).map (·.row)), Grid.largest ((p :: rest).map (·.column))⟩⟩

/-- The grid of a worksheet. -/
def grid (sheet : Worksheet) : Grid :=
  match extent? sheet with
  | none => Grid.ofCells []
  | some extent => Grid.ofExtent extent (sheet.filterMap StoredCell.cell?)

end Worksheet

end DecisionTable
