import DecisionTable.Sheet.ColumnMap
import DecisionTable.Sheet.Grid

/-! # Rows of rules

Below the templates each row is a rule. The first cell of the row names the rule, and the
others are texts for the templates of their columns, on the two sides of the gap.
-/

namespace DecisionTable

/-- The texts of one rule. -/
structure RuleRecord where
  conditions : ColumnMap
  consequences : ColumnMap
  deriving DecidableEq, Repr

/-- Records with their names, in the order in which the names first appear. -/
abbrev RuleRecords := List (String × RuleRecord)

/-- Cells of one row: the one that names the rule, and the others. -/
structure RuleRow where
  label : Cell
  others : List Cell

/-- Puts neighbouring cells of one row together. -/
def RuleRow.ofCells : List Cell → List RuleRow
  | [] => []
  | cell :: rest =>
    match ofCells rest with
    | [] => [⟨cell, []⟩]
    | row :: rows =>
      if cell.position.row = row.label.position.row then ⟨cell, row.label :: row.others⟩ :: rows
      else ⟨cell, []⟩ :: row :: rows

/-- The text of a consequence's cell. A text that a spreadsheet would show for a truth value
    becomes that literal. -/
def consequenceText (value : CellValue) : String :=
  match value with
  | .text "TRUE" => "true"
  | .text "FALSE" => "false"
  | value => value.render

/-- The record of a row. -/
def RuleRow.record (gapColumn : UInt32) (row : RuleRow) : RuleRecord :=
  let isCondition (c : Cell) : Bool := c.position.column < gapColumn
  ⟨ColumnMap.ofList ((row.others.filter isCondition).map fun c =>
      (c.position.column, c.value.render)),
    ColumnMap.ofList ((row.others.filter fun c => !isCondition c).map fun c =>
      (c.position.column, consequenceText c.value))⟩

namespace RuleRecords

/-- Stores a record: in the place of the one of that name, or else at the end. -/
def insert (name : String) (record : RuleRecord) : RuleRecords → RuleRecords
  | [] => [(name, record)]
  | (n, r) :: rest =>
    if n = name then (n, record) :: rest else (n, r) :: insert name record rest

/-- The records of cells, row by row. A later row of a name replaces an earlier one. -/
def ofCells (gapColumn : UInt32) (cells : List Cell) : RuleRecords :=
  (RuleRow.ofCells cells).foldl
    (fun records row => insert row.label.value.render (row.record gapColumn) records) []

end RuleRecords

end DecisionTable
