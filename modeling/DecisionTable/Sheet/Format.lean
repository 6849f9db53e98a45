import DecisionTable.Files.Path
import DecisionTable.Sheet.Compile
import DecisionTable.Sheet.Csv
import DecisionTable.Sheet.Workbook

/-! # Sheet files

The formats of sheets, their file extensions, and the reading of a file's content as a grid.
-/

namespace DecisionTable

/-- A format that a table can be written in. -/
inductive SheetFormat where
  | xlsx
  | xlsm
  | xls
  | ods
  | csv
  deriving DecidableEq, Repr

/-- The content of a file: bytes, or a workbook, whose bytes are not looked at. -/
inductive FileContent where
  | bytes (bytes : List UInt8)
  | workbook (book : Workbook)
  deriving DecidableEq

namespace SheetFormat

/-- The formats in the order in which they are tried. -/
def all : List SheetFormat := [xlsx, xlsm, xls, ods, csv]

/-- The file extension of a format, which is also its name. -/
def extension : SheetFormat → String
  | xlsx => "xlsx"
  | xlsm => "xlsm"
  | xls => "xls"
  | ods => "ods"
  | csv => "csv"

/-- The format of an extension. The case of letters makes no difference. -/
def ofExtension? (text : String) : Option SheetFormat :=
  all.find? fun f => f.extension == text.map Char.toLower

/-- The format of a file by its path. -/
def ofPath (path : FilePath) : Except TableError SheetFormat :=
  match path.extension?.bind ofExtension? with
  | some f => .ok f
  | none => .error (.unknownFormat path.text)

/-- Reads the name of a format; points before it are skipped. -/
def parse (text : String) : Except TableError SheetFormat :=
  match ofExtension? (String.ofList (text.toList.dropWhile (· == '.'))) with
  | some f => .ok f
  | none => .error (.unknownFormat text)

/-- The grid of a workbook: that of its first worksheet. -/
def decodeWorkbook : Workbook → Except TableError Grid
  | [] => .error .emptyWorkbook
  | sheet :: _ => .ok sheet.grid

/-- Reads a file's content as a grid. Bytes in a workbook format are never a workbook here. -/
def decode (format : SheetFormat) : FileContent → Except TableError Grid
  | .workbook book => decodeWorkbook book
  | .bytes bytes =>
    if format = csv then (Csv.decode bytes).mapError .csv else .error .notWorkbook

end SheetFormat

/-- The id of a sheet: the name of its file without the extension. -/
def sheetId (path : FilePath) : String := path.stem?.getD path.text

end DecisionTable
