import DecisionTable.Console.Arguments
import DecisionTable.Console.Failure
import DecisionTable.Console.Listing
import DecisionTable.Json.Coercion
import DecisionTable.Json.Reader
import DecisionTable.Settings.Configuration
import DecisionTable.Settings.ProjectDirectory

/-! # Commands

What each command of the command line prints. A command sees a file tree, an environment and its
standard input, and changes none of them, so that its outcome is a function of these.
-/

namespace DecisionTable

/-- What a command sees. -/
structure Surroundings where
  tree : FileTree
  environment : Environment
  /-- The bytes of standard input. -/
  input : List UInt8

/-- What a command leaves: its exit code, and what it printed. -/
structure Outcome where
  code : Nat
  output : String
  errors : String
  deriving DecidableEq, Repr

/-- A command under way, with all that it needs settled. -/
structure Session where
  tree : FileTree
  input : List UInt8
  palette : Palette
  /-- The directory of the project, if there is one. -/
  project : Option FilePath
  configuration : Configuration
  /-- Where sheets are looked up. -/
  rulesDirectory : FilePath
  json : Bool
  quiet : Bool

namespace Session

/-- The name of the configuration file in the directory of a project. -/
def configurationName : FilePath := ⟨"config.yaml"⟩

/-- Reads the configuration: that of the project, or without one that of the environment. -/
def configuration? (around : Surroundings) : Option FilePath → Except Failure Configuration
  | some directory =>
    let path := directory.join configurationName
    match Configuration.load? around.tree around.environment path with
    | some c => .ok c
    | none => .error ((Failure.ofText "invalid configuration").during s!"failed to load {path.text}")
  | none =>
    match Configuration.ofEnvironment? around.environment with
    | some c => .ok c
    | none =>
      .error ((Failure.ofText "invalid configuration").during "failed to load configuration")

/-- Settles what a command needs. A directory of sheets that the command line names is taken as it
    is; the configured one starts at the root of the project, or without one at the current
    directory. -/
def start (around : Surroundings) (options : Options) : Except Failure Session := do
  let current := FileTree.absolute around.tree.current
  let project := ProjectDirectory.find? around.tree around.environment current
  let c ← configuration? around project
  let root := (project.map ProjectDirectory.root).getD current
  return { tree := around.tree
           input := around.input
           palette := .ofEnvironment around.environment
           project := project
           configuration := c
           rulesDirectory := options.rulesDirectory.getD (c.rulesPath root)
           json := options.json || c.json
           quiet := options.quiet }

/-- An outcome of a command that did its work. -/
def done (output : String) (errors : String := "") : Outcome := ⟨0, output, errors⟩

/-- JSON on lines of its own. -/
def jsonLines (value : Json) : String := value.pretty ++ "\n"

/-- A rule book without sheets, as the configuration wants it. -/
def emptyBook (s : Session) : RuleBook := .empty s.configuration.table s.configuration.engine

/-- Compiles a sheet and prints its rules. -/
def compile (s : Session) (name : String) : Except Failure Outcome := do
  let path ← (s.tree.findSheet name s.rulesDirectory).mapError .ofTable
  let rules ← (s.tree.compileSheet path s.configuration.table).mapError fun e =>
    (Failure.ofTable e).during s!"failed to compile {path.text}"
  if s.json then
    return done (jsonLines (.object [("sheet", .string (sheetId path)), ("path", .string path.text),
      ("etag", .string rules.fingerprint), ("rules", rules.toJson)]))
  else
    let plural := if rules.length == 1 then "" else "s"
    let heading := s!"{sheetId path}: {rules.length} rule{plural}"
    let top :=
      if s.quiet then ""
      else s.palette.paint .heading heading ++ "\n" ++ s.palette.separator ++ "\n"
    return done (top ++ String.join (rules.map fun rule => rule.listing s.palette ++ "\n"))

/-- The sheets that a decision is asked of: those named, or else all in the directory. -/
def resolve (s : Session) (names : List String) : Except Failure (List FilePath) :=
  if names.isEmpty then
    match s.tree.listSheets s.rulesDirectory with
    | [] => .error (.ofText s!"no sheets found in {s.rulesDirectory.text}")
    | paths => .ok paths
  else names.mapM fun name => (s.tree.findSheet name s.rulesDirectory).mapError .ofTable

/-- Loads the sheet at a path into a book. -/
def loadInto (s : Session) (book : RuleBook) (path : FilePath) : Except Failure RuleBook :=
  match book.loadFile s.tree path with
  | .ok (_, book) => .ok book
  | .error e => .error ((Failure.ofTable e).during s!"failed to load {path.text}")

/-- The book for a decision: the sheets that it is asked of, loaded one after the other. -/
def bookOf (s : Session) (names : List String) : Except Failure RuleBook := do
  (← s.resolve names).foldlM s.loadInto s.emptyBook

/-- The text of a fact: standard input for a hyphen, a file behind an at sign, or the argument. -/
def factText (s : Session) (argument : String) : Except Failure String :=
  match argument.toList with
  | ['-'] =>
    (Utf8.decode s.input).mapError fun _ =>
      (Failure.ofText FileFault.notUtf8.message).during "failed to read fact from stdin"
  | '@' :: path =>
    let path := String.ofList path
    (s.tree.readText ⟨path⟩).mapError fun fault =>
      (Failure.ofText fault.message).during s!"failed to read fact file {path}"
  | _ => .ok argument

/-- Reads a fact. -/
def readFact (s : Session) (argument : String) : Except Failure Json := do
  (Json.read (← s.factText argument)).mapError fun e =>
    (Failure.ofText e.message).during "fact is not valid JSON"

/-- Runs a fact through sheets and prints the decision. -/
def decide (s : Session) (names : List String) (fact : String) : Except Failure Outcome := do
  let book ← s.bookOf names
  let value ← s.readFact fact
  let decision ← (book.decideValue value).mapError .ofBook
  let warning :=
    if !s.quiet && !s.json && decision.rulesExecuted.isEmpty then
      s.palette.paint .warn "no rule matched" ++ "\n"
    else ""
  return done (jsonLines decision.toJson) warning

/-- A sheet of the directory, and what came of compiling it on its own. -/
structure Entry where
  path : FilePath
  result : Except TableError Sheet

/-- The sheets of the directory. -/
def entries (s : Session) : List Entry :=
  (s.tree.listSheets s.rulesDirectory).map fun path =>
    ⟨path, (s.emptyBook.loadFile s.tree path).map (·.1)⟩

/-- The name of an entry's format. -/
def Entry.format? (e : Entry) : Option String :=
  match SheetFormat.ofPath e.path with
  | .ok format => some format.extension
  | .error _ => none

/-- An entry as JSON. -/
def Entry.toJson (e : Entry) : Json :=
  let format := (e.format?.map Json.string).getD .null
  .object ([("id", .string (sheetId e.path)), ("path", .string e.path.text), ("format", format)] ++
    match e.result with
    | .ok sheet => [("modified", .string (Timestamp.ofSeconds sheet.modified).rfc3339),
        ("rules", .ofNat sheet.rules.length)]
    | .error error => [("kind", .string error.kind.name), ("error", .string error.message)])

/-- An entry as a row of a table. -/
def Entry.row (palette : Palette) (e : Entry) : List String :=
  let (modified, status) := match e.result with
    | .ok sheet => ((Timestamp.ofSeconds sheet.modified).minutes,
        palette.paint .pass "✓" ++ s!" {sheet.rules.length}")
    | .error error => ("", palette.paint .fail "✖" ++ s!" {palette.paintKind error.kind} error")
  [sheetId e.path, e.format?.getD "", modified, status]

/-- Lists the sheets. A sheet that does not compile hides none of the others. -/
def sheets (s : Session) : Outcome :=
  let entries := s.entries
  if s.json then done (jsonLines (.array (entries.map Entry.toJson)))
  else if entries.isEmpty then
    done (if s.quiet then "" else s!"No sheets in {s.rulesDirectory.text}\n")
  else done (tableText ["SHEET", "FORMAT", "MODIFIED", "RULES"] (entries.map (Entry.row s.palette)))

/-- Prints the configuration. -/
def showConfiguration (s : Session) : Outcome :=
  if s.json then done (jsonLines s.configuration.toJson)
  else
    let note := if s.quiet then "" else s!"# rules directory: {s.rulesDirectory.text}\n"
    done (s.configuration.toYaml ++ note)

/-- Prints the path of the configuration file, whether or not it is there. -/
def configurationPath (s : Session) : Except Failure Outcome :=
  match s.project with
  | none => .error (.ofText s!"no {ProjectDirectory.name} directory found")
  | some directory =>
    let path := directory.join configurationName
    if s.json then
      .ok (done (jsonLines (.object [("path", .string path.text),
        ("exists", .bool (s.tree.isFile path))])))
    else .ok (done (path.text ++ "\n"))

/-- The version of the program. -/
def versionNumber : String := "0.1.0"

/-- The build of the program. -/
def build : String := "dev"

/-- The system that the program runs on. -/
def system : String := "linux"

/-- The processor that the program runs on. -/
def processor : String := "x86_64"

/-- Prints the version. -/
def version (s : Session) : Outcome :=
  if s.json then
    done (jsonLines (.object [("version", .string versionNumber), ("build", .string build),
      ("os", .string system), ("arch", .string processor)]))
  else done s!"iom version {versionNumber} ({build}) {system}/{processor}\n"

/-- How the program is used. -/
def usage : String :=
  "Usage: iom [OPTIONS] [COMMAND]\n\n" ++
  "Commands:\n" ++
  "  compile SHEET                  Compile a sheet and print its rules\n" ++
  "  decide [-s SHEET]... [-f FACT] Evaluate a fact against one or more sheets\n" ++
  "  sheets                         List the sheets in the rules directory\n" ++
  "  config show|path               Show configuration\n" ++
  "  version                        Print version information\n\n" ++
  "Options:\n" ++
  "      --rules-dir DIR  Directory holding decision-table sheets\n" ++
  "      --json           Output in JSON format\n" ++
  "  -v, --verbose        Enable verbose output\n" ++
  "  -q, --quiet          Suppress non-essential output\n" ++
  "  -h, --help           Print help\n" ++
  "  -V, --version        Print version\n"

/-- Carries out a command. -/
def perform (s : Session) : Command → Except Failure Outcome
  | .compile sheet => s.compile sheet
  | .decide sheets fact => s.decide sheets fact
  | .sheets => .ok s.sheets
  | .showConfiguration => .ok s.showConfiguration
  | .configurationPath => s.configurationPath
  | .version => .ok s.version
  | .help => .ok (done usage)

end Session

/-- The outcome of a command that failed. -/
def Failure.outcome (f : Failure) (json : Bool) : Outcome :=
  ⟨1, "", if json then Session.jsonLines (.object [("error", .string f.text)])
    else s!"Error: {f.text}\n"⟩

/-- The name of the program. -/
def programName : String := "iom"

/-- The version of the part of the program that command words name. -/
def versionLine (words : List String) : String :=
  "-".intercalate (programName :: words) ++ " " ++ Session.versionNumber ++ "\n"

/-- Runs a command line. A failure before the configuration is known is printed as JSON only if the
    command line asks for it. -/
def runCommandLine (around : Surroundings) (arguments : List String) : Outcome :=
  match Request.ofArguments? arguments with
  | none => ⟨2, "", "error: the arguments make no sense\n\n" ++ Session.usage⟩
  | some .usage => Session.done Session.usage
  | some (.versionOf words) => Session.done (versionLine words)
  | some (.run invocation) =>
    match Session.start around invocation.options with
    | .error failure => failure.outcome invocation.options.json
    | .ok session =>
      match session.perform invocation.command with
      | .error failure => failure.outcome session.json
      | .ok outcome => outcome

end DecisionTable
