import DecisionTable.Sheet.Position
import DecisionTable.Json.Coercion

/-! # Grids of cells

A grid holds the cells of a sheet that are not empty, in order and with one cell at a place.
-/

namespace DecisionTable

/-- What a cell holds. -/
inductive CellValue where
  | text (text : String)
  | number (x : Binary64)
  | bool (value : Bool)
  deriving DecidableEq

namespace CellValue

/-- The text of a cell, as it goes into templates. -/
def render : CellValue → String
  | text s => s
  | number x => x.text
  | bool value => if value then "true" else "false"

/-- A cell's value as JSON. A number stays a double, and is null if it is not finite. -/
def toJson : CellValue → Json
  | text s => .string s
  | number (.finite x) => .number (.double x)
  | number _ => .null
  | bool value => .bool value

end CellValue

/-- A cell and its place. -/
structure Cell where
  position : Position
  value : CellValue
  deriving DecidableEq

/-- Puts a cell before sorted ones. A cell that is already at its place stays. -/
def Cell.place (cell : Cell) : List Cell → List Cell
  | [] => [cell]
  | other :: rest =>
    if cell.position.before other.position then cell :: other :: rest
    else if cell.position = other.position then other :: rest
    else other :: place cell rest

/-- A sheet's cells in order, and the rectangle they lie in. -/
structure Grid where
  extent : Extent
  cells : List Cell
  deriving DecidableEq

namespace Grid

/-- The cells that lie in a rectangle, in order. Of several cells at one place the last one
    given is kept. -/
def ofExtent (extent : Extent) (cells : List Cell) : Grid :=
  ⟨extent, (cells.filter (extent.contains ·.position)).foldr Cell.place []⟩

/-- The largest of some numbers, or zero. -/
def largest (numbers : List UInt32) : UInt32 :=
  numbers.foldl (fun a b => if a < b then b else a) 0

/-- All cells, in the rectangle that reaches from the first place of the sheet to their largest row
    and column. -/
def ofCells (cells : List Cell) : Grid :=
  ofExtent ⟨⟨0, 0⟩, ⟨largest (cells.map (·.position.row)), largest (cells.map (·.position.column))⟩⟩
    cells

/-- The value at a place. -/
def get? (grid : Grid) (p : Position) : Option CellValue :=
  (grid.cells.find? (·.position = p)).map (·.value)

/-- The cells as JSON. -/
def toJson (grid : Grid) : Json :=
  let whole (n : UInt32) : Json := .ofBinary64 (.ofNat n.toNat)
  .array (grid.cells.map fun c => .object
    [("position", .object [("row", whole c.position.row), ("column", whole c.position.column)]),
      ("value", c.value.toJson)])

end Grid

end DecisionTable
