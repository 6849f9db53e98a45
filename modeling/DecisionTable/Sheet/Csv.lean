import DecisionTable.Sheet.Error
import DecisionTable.Sheet.Grid
import DecisionTable.Text.Utf8

/-! # Sheets as comma-separated values

A record ends at a line feed, a carriage return or both, and lines without anything are
skipped. A field that starts with a quote goes on to the next single quote, and a doubled
quote inside stands for one; what follows the closing quote is literal. Fields are split as
bytes and decoded afterwards.
-/

namespace DecisionTable.Csv

/-- What the next byte belongs to. -/
inductive Place where
  | recordStart
  | fieldStart
  | bare
  | quoted
  /-- Behind a quote inside a quoted field. -/
  | quote
  deriving DecidableEq, Repr

/-- A record and where the one before it ended. -/
structure Record where
  fields : List (List UInt8)
  byte : Nat
  line : Nat

/-- The state of the reader. Fields, records and bytes are held in reverse. -/
structure State where
  place : Place
  field : List UInt8
  fields : List (List UInt8)
  records : List Record
  /-- Bytes and line feeds read so far. -/
  bytes : Nat
  feeds : Nat
  /-- Where the last record ended. -/
  startByte : Nat
  startLine : Nat

namespace State

/-- Ends a field. -/
def endField (s : State) : State :=
  { s with place := .fieldStart, field := [], fields := s.field.reverse :: s.fields }

/-- Ends a record behind the byte that was read last. -/
def endRecord (s : State) : State :=
  let s := s.endField
  { s with
    place := .recordStart
    fields := []
    records := ⟨s.fields.reverse, s.startByte, s.startLine⟩ :: s.records
    startByte := s.bytes
    startLine := s.feeds + 1 }

/-- Adds a byte to the field. -/
def add (s : State) (place : Place) (b : UInt8) : State :=
  { s with place := place, field := b :: s.field }

/-- What a byte does outside of quotes. -/
def bareByte (s : State) (b : UInt8) : State :=
  if b = 0x2C then s.endField
  else if b = 0x0A || b = 0x0D then s.endRecord
  else s.add .bare b

/-- What a byte does, once it is counted. -/
def take (s : State) (b : UInt8) : State :=
  match s.place with
  | .recordStart =>
    if b = 0x0A || b = 0x0D then s
    else if b = 0x22 then { s with place := .quoted }
    else s.bareByte b
  | .fieldStart => if b = 0x22 then { s with place := .quoted } else s.bareByte b
  | .bare => s.bareByte b
  | .quoted => if b = 0x22 then { s with place := .quote } else s.add .quoted b
  | .quote => if b = 0x22 then s.add .quoted b else s.bareByte b

/-- Reads one byte. -/
def step (s : State) (b : UInt8) : State :=
  let feeds := if b = 0x0A then s.feeds + 1 else s.feeds
  { s with bytes := s.bytes + 1, feeds := feeds }.take b

end State

/-- The bytes that may mark a text as UTF-8, which are no part of it. -/
def byteOrderMark : List UInt8 := [0xEF, 0xBB, 0xBF]

/-- The records of a text. -/
def records (bytes : List UInt8) : List Record :=
  let marked := byteOrderMark.isPrefixOf bytes
  let skipped := if marked then byteOrderMark.length else 0
  let start : State := ⟨.recordStart, [], [], [], skipped, 0, 0, 1⟩
  let last := (bytes.drop skipped).foldl State.step start
  (if last.place = .recordStart then last else last.endRecord).records.reverse

/-- Decodes fields from a column on. -/
def decodeFields (r : Record) (row column : Nat) : List (List UInt8) → Except CsvFault (List String)
  | [] => .ok []
  | field :: rest =>
    match Utf8.decode field with
    | .error valid => .error ⟨row, r.line, column, r.byte, valid⟩
    | .ok text => (decodeFields r row (column + 1) rest).map (text :: ·)

/-- Decodes records from a row on. -/
def decodeRecords (row : Nat) : List Record → Except CsvFault (List (List String))
  | [] => .ok []
  | r :: rest => do
    let fields ← decodeFields r row 0 r.fields
    return fields :: (← decodeRecords (row + 1) rest)

/-- The cells of a row: an empty field is no cell. -/
def rowCells (row : Nat) (fields : List String) : List Cell :=
  (fields.zipIdx.filter fun f => !f.1.isEmpty).map fun f =>
    ⟨⟨UInt32.ofNat row, UInt32.ofNat f.2⟩, .text f.1⟩

/-- Reads a sheet. -/
def decode (bytes : List UInt8) : Except CsvFault Grid :=
  (decodeRecords 0 (records bytes)).map fun rows =>
    Grid.ofCells (rows.zipIdx.flatMap fun r => rowCells r.2 r.1)

end DecisionTable.Csv
