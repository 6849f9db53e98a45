/-! # Places on a sheet

Rows and columns count from zero. The order of places is row by row, and in a row from left
to right.
-/

namespace DecisionTable

/-- A place on a sheet. -/
structure Position where
  row : UInt32
  column : UInt32
  deriving DecidableEq, Repr

/-- The letters of a column, last letter first: the digits of its number plus one in the base 26
    that counts from 1 to 26. The argument is that number. -/
def columnLettersReversed (n : Nat) : List Char :=
  if n = 0 then []
  else Char.ofNat ('A'.toNat + (n - 1) % 26) :: columnLettersReversed ((n - 1) / 26)
termination_by n
decreasing_by omega

/-- The name of a column: A to Z, then AA and so on. -/
def columnName (column : UInt32) : String :=
  String.ofList (columnLettersReversed (column.toNat + 1)).reverse

/-- The row number that a reader sees, which counts from one. -/
def rowNumber (row : UInt32) : UInt32 := row + 1

namespace Position

/-- The place as a spreadsheet names it, such as `B7`. -/
def text (p : Position) : String := s!"{columnName p.column}{rowNumber p.row}"

/-- Whether a place comes before another. -/
def before (p q : Position) : Bool := p.row < q.row || (p.row == q.row && p.column < q.column)

end Position

/-- A rectangle of places, both corners included. -/
structure Extent where
  first : Position
  last : Position
  deriving DecidableEq, Repr

/-- Whether a place lies in a rectangle. -/
def Extent.contains (e : Extent) (p : Position) : Bool :=
  e.first.row ≤ p.row && p.row ≤ e.last.row && e.first.column ≤ p.column && p.column ≤ e.last.column

end DecisionTable
