import DecisionTable.Sheet.ColumnMap
import DecisionTable.Sheet.Error
import DecisionTable.Sheet.Grid

/-! # Layout of a table

The top of a table says how to read the rest. The header row has labels side by side up to a
gap: columns left of it hold conditions, the others consequences. The first cell behind the
header that reads as the marker starts the row of templates. The cells below that row are
the rules.
-/

namespace DecisionTable

/-- The two literals that a table is written with. -/
structure TableSyntax where
  /-- The text of the cell that starts the row of templates. -/
  marker : String := "BINDING"
  /-- What a template has in the place of a rule's cell. -/
  placeholder : String := "$value"
  deriving DecidableEq, Repr

/-- What the top of a table says. -/
structure Layout where
  /-- The first column that holds consequences. -/
  gapColumn : UInt32
  /-- The row of templates. -/
  bindingRow : UInt32
  /-- The template of each column. -/
  bindings : ColumnMap
  deriving DecidableEq, Repr

namespace Layout

/-- Follows the header from its start while each cell stands right of the last one, and finds the
    gap before the first that does not. That cell is used up. The cell at the start itself may
    be empty or not. -/
def gap? (start : Position) (last : UInt32) : List Cell → Option (UInt32 × List Cell)
  | [] => none
  | cell :: rest =>
    if cell.position = start then gap? start last rest
    else if cell.position.row ≠ start.row then none
    else if cell.position.column = last + 1 then gap? start cell.position.column rest
    else some (last + 1, rest)

/-- Finds the first cell that reads as the marker: its row, and the cells behind it. -/
def marker? (marker : String) : List Cell → Option (UInt32 × List Cell)
  | [] => none
  | cell :: rest =>
    if cell.value.render = marker then some (cell.position.row, rest) else marker? marker rest

/-- Reads the layout of a table; the cells below the row of templates are left. -/
def detect (grid : Grid) (syn : TableSyntax) : Except TableError (Layout × List Cell) :=
  let start := grid.extent.first
  match gap? start start.column grid.cells with
  | none => .error (.noGap start.row)
  | some (gapColumn, cells) =>
    match marker? syn.marker cells with
    | none => .error (.missingMarker syn.marker)
    | some (row, cells) =>
      let onRow (cell : Cell) : Bool := cell.position.row == row
      let bindings := (cells.takeWhile onRow).map fun c => (c.position.column, c.value.render)
      .ok (⟨gapColumn, row, ColumnMap.ofList bindings⟩, cells.dropWhile onRow)

end Layout

end DecisionTable
