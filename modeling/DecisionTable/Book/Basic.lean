import DecisionTable.Chaining.Run
import DecisionTable.Sheet.Discovery
import DecisionTable.Text.Timestamp

/-! # Rule books

A book holds compiled sheets by id and runs the rules of all of them, sheet after sheet in the
order of their ids. The sheets, the rules and the digest of the rules are one snapshot, which
is replaced as a whole: a sheet that does not compile leaves the book as it was.
-/

namespace DecisionTable

/-- A compiled sheet of a book. -/
structure Sheet where
  id : String
  /-- What the rules were compiled from. -/
  content : FileContent
  format : SheetFormat
  /-- When the sheet was last changed, in seconds since 1970. -/
  modified : Int
  rules : RuleSet

namespace Sheet

/-- A sheet as JSON, without its content. -/
def toJson (s : Sheet) : Json :=
  .object [("id", .string s.id), ("format", .string s.format.extension),
    ("modified", .string (Timestamp.ofSeconds s.modified).rfc3339), ("rules", s.rules.toJson)]

/-- Compiles a sheet. -/
def compile (syn : TableSyntax) (id : String) (content : FileContent) (format : SheetFormat)
    (modified : Int) : Except TableError Sheet := do
  let rules ← (← format.decode content).compile syn
  return ⟨id, content, format, modified, rules⟩

end Sheet

/-- Sheets in ascending order of their ids, one for each id. -/
abbrev SheetMap := List Sheet

namespace SheetMap

/-- Stores a sheet in its place; it replaces a sheet of the same id. -/
def insert (sheet : Sheet) : SheetMap → SheetMap
  | [] => [sheet]
  | other :: rest =>
    if sheet.id < other.id then sheet :: other :: rest
    else if sheet.id = other.id then sheet :: rest
    else other :: insert sheet rest

/-- Removes the sheet of an id. -/
def erase (id : String) (sheets : SheetMap) : SheetMap := sheets.filter (·.id != id)

/-- The sheet of an id. -/
def get? (id : String) (sheets : SheetMap) : Option Sheet := sheets.find? (·.id == id)

end SheetMap

/-- One state of a book: its sheets, their rules in order, and the digest of the rules. -/
structure Shelf where
  sheets : SheetMap
  rules : RuleSet
  etag : String

/-- The state for some sheets. -/
def Shelf.ofSheets (sheets : SheetMap) : Shelf :=
  let rules := sheets.flatMap (·.rules)
  ⟨sheets, rules, RuleSet.fingerprint rules⟩

/-- A book: how its tables are written, how its rules run, and its state. -/
structure RuleBook where
  syn : TableSyntax
  settings : EngineSettings
  shelf : Shelf

/-- Why a book refuses a sheet or a fact. -/
inductive BookError where
  | table (cause : TableError)
  | chain (cause : ChainError)
  /-- The fact is not an object but a value of the kind named. -/
  | invalidFact (found : String)
  deriving DecidableEq

namespace BookError

/-- The text of an error. -/
def message : BookError → String
  | table cause => cause.message
  | chain cause => cause.message
  | invalidFact found => s!"fact must be a JSON object, got {found}"

end BookError

/-- The name of a value's kind. -/
def Json.kindName : Json → String
  | null => "null"
  | bool _ => "boolean"
  | number _ => "number"
  | string _ => "string"
  | array _ => "array"
  | object _ => "object"

/-- A book's answer: the last fact without the two members that the answer adds, the matched rules,
    and the digest of the rules that were run. -/
structure Decision where
  fact : Fact
  rulesExecuted : List String
  etag : String

/-- A decision as JSON: the members of the fact and then the two of the answer. -/
def Decision.toJson (d : Decision) : Json :=
  .object (d.fact ++ [("rulesExecuted", .array (d.rulesExecuted.map .string)),
    ("rulesETag", .string d.etag)])

namespace RuleBook

/-- A book without sheets. -/
def empty (syn : TableSyntax) (settings : EngineSettings) : RuleBook :=
  ⟨syn, settings, .ofSheets []⟩

/-- Replaces the state by the one for changed sheets. -/
def update (book : RuleBook) (change : SheetMap → SheetMap) : RuleBook :=
  { book with shelf := .ofSheets (change book.shelf.sheets) }

/-- Compiles a sheet and stores it under an id. -/
def load (book : RuleBook) (id : String) (content : FileContent) (format : SheetFormat)
    (modified : Int) : Except TableError (Sheet × RuleBook) := do
  let sheet ← Sheet.compile book.syn id content format modified
  return (sheet, book.update (SheetMap.insert sheet))

/-- Loads the sheet file at a path under its id. -/
def loadFile (book : RuleBook) (tree : FileTree) (path : FilePath) :
    Except TableError (Sheet × RuleBook) := do
  let format ← SheetFormat.ofPath path
  let file ← (tree.file path).mapError .file
  book.load (sheetId path) file.content format file.modified

/-- Whether a sheet is stored under an id. -/
def contains (book : RuleBook) (id : String) : Bool := (book.shelf.sheets.get? id).isSome

/-- Removes the sheet of an id, and tells whether there was one. -/
def remove (book : RuleBook) (id : String) : Bool × RuleBook :=
  if book.contains id then (true, book.update (SheetMap.erase id)) else (false, book)

/-- The ids of the sheets in ascending order. -/
def sheetIds (book : RuleBook) : List String := book.shelf.sheets.map (·.id)

/-- The sheet of an id. -/
def sheet? (book : RuleBook) (id : String) : Option Sheet := book.shelf.sheets.get? id

/-- The digest of all rules. -/
def etag (book : RuleBook) : String := book.shelf.etag

/-- The number of rules. -/
def ruleCount (book : RuleBook) : Nat := book.shelf.rules.length

/-- Runs a fact through all rules. -/
def decide (book : RuleBook) (fact : Fact) : Except ChainError Decision :=
  (Chain.run book.settings (book.shelf.rules.map CompiledRule.toRule) fact).map fun e =>
    ⟨Members.erase "rulesETag" (Members.erase "rulesExecuted" e.fact), e.matchPath, book.shelf.etag⟩

/-- Runs a value, which must be an object, through all rules. -/
def decideValue (book : RuleBook) (value : Json) : Except BookError Decision :=
  match value with
  | .object fact => (book.decide fact).mapError .chain
  | other => .error (.invalidFact other.kindName)

end RuleBook

end DecisionTable
