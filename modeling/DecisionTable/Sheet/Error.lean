import DecisionTable.Sheet.Position
import DecisionTable.Formula.Token

/-! # What can be wrong with a table -/

namespace DecisionTable

/-- Why a file cannot be read. -/
inductive FileFault where
  | notFound
  | isDirectory
  | notDirectory
  | notUtf8
  deriving DecidableEq, Repr

/-- How the system words a fault. -/
def FileFault.message : FileFault → String
  | notFound => "No such file or directory (os error 2)"
  | isDirectory => "Is a directory (os error 21)"
  | notDirectory => "Not a directory (os error 20)"
  | notUtf8 => "stream did not contain valid UTF-8"

/-- A field of a csv sheet that is not UTF-8. -/
structure CsvFault where
  /-- The record's number, from zero. -/
  record : Nat
  /-- The line on which the record before it ended, from one. -/
  line : Nat
  /-- The field's number in the record, from zero. -/
  field : Nat
  /-- The bytes before the place where the record before it ended. -/
  byte : Nat
  /-- The bytes of the field before the fault. -/
  validBytes : Nat
  deriving DecidableEq, Repr

/-- What is wrong with the field, without its record. -/
def CsvFault.reason (f : CsvFault) : String :=
  s!"invalid utf-8: invalid UTF-8 in field {f.field} near byte index {f.validBytes}"

/-- The text of a fault. -/
def CsvFault.message (f : CsvFault) : String :=
  s!"CSV parse error: record {f.record} (line {f.line}, field: {f.field}, byte: {f.byte}): " ++
    f.reason

/-- The part of the work on a sheet in which an error arises. -/
inductive TableErrorKind where
  | layout
  | binding
  | expression
  | sheet
  deriving DecidableEq, Repr

/-- The name of a kind. -/
def TableErrorKind.name : TableErrorKind → String
  | layout => "layout"
  | binding => "binding"
  | expression => "expression"
  | sheet => "sheet"

/-- Why a sheet gives no rules. -/
inductive TableError where
  /-- The header row has no free column that sets conditions apart from consequences. -/
  | noGap (row : UInt32)
  /-- No cell below the header reads as the marker. -/
  | missingMarker (marker : String)
  /-- A rule has a cell in a column without a template. -/
  | missingBinding (rule : String) (column : UInt32)
  /-- A template with a rule's cell put in is no formula. -/
  | expression (rule : String) (column : UInt32) (fragment : String) (cause : ParseError)
  /-- The bytes are no workbook. -/
  | notWorkbook
  | csv (fault : CsvFault)
  | emptyWorkbook
  | unknownFormat (text : String)
  | sheetNotFound (name directory : String)
  | file (fault : FileFault)
  deriving DecidableEq

namespace TableError

/-- Why bytes are no workbook. -/
def notWorkbookReason : String := "Cannot detect file format"

/-- The text of an error. -/
def message : TableError → String
  | noGap row =>
    s!"layout error: header row {rowNumber row} has no gap between conditions and consequences"
  | missingMarker marker => s!"binding error: no '{marker}' row found"
  | missingBinding rule column =>
    s!"binding error: rule '{rule}' uses column {columnName column} which has no binding"
  | expression rule column fragment cause =>
    s!"expression error in rule '{rule}' column {columnName column}: {cause.message} (in \x60" ++
      fragment ++ "\x60)"
  | notWorkbook => s!"workbook error: {notWorkbookReason}"
  | csv fault => s!"csv error: {fault.message}"
  | emptyWorkbook => "workbook has no worksheets"
  | unknownFormat text => s!"unsupported sheet format: {text}"
  | sheetNotFound name directory => s!"sheet '{name}' not found in {directory}"
  | file fault => s!"IO error: {fault.message}"

/-- The part of the work in which an error arises. -/
def kind : TableError → TableErrorKind
  | noGap _ => .layout
  | missingMarker _ | missingBinding _ _ => .binding
  | expression _ _ _ _ => .expression
  | _ => .sheet

end TableError

end DecisionTable
