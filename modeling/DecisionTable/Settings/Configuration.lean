import DecisionTable.Chaining.Settings
import DecisionTable.Files.Tree
import DecisionTable.Json.Printer
import DecisionTable.Settings.Environment
import DecisionTable.Settings.Yaml.Printer
import DecisionTable.Settings.Yaml.Reader
import DecisionTable.Sheet.Layout

/-! # Configuration of a project

What a project may set: where its sheets are, the literals of its tables, how its engine runs,
and whether output is JSON. It is put together from defaults, a configuration file and the
environment, later ones winning setting by setting. A setting of the wrong type makes the whole
configuration invalid; names that stand for no setting are passed over.
-/

namespace DecisionTable

/-- The settings of a project. -/
structure Configuration where
  /-- Where the sheets are, from the root of the project. -/
  rulesDirectory : FilePath := ⟨"rules"⟩
  /-- The literals of the tables. -/
  table : TableSyntax := {}
  /-- How the engine runs. -/
  engine : EngineSettings := {}
  /-- Whether output is JSON without being asked. -/
  json : Bool := false
  deriving DecidableEq, Repr

namespace Setting

/-- The text of a setting. -/
def asText? : Setting → Option String
  | .text s => some s
  | _ => none

/-- The truth value of a setting. -/
def asBool? : Setting → Option Bool
  | .bool b => some b
  | _ => none

/-- The 32-bit number of a setting. -/
def asCount? : Setting → Option UInt32
  | .integer n => if 0 ≤ n ∧ n.toNat < UInt32.size then some (UInt32.ofNat n.toNat) else none
  | _ => none

/-- A member of a group of settings: the entry of a name in a map, or the item at a position in a
    list. The outer option is `none` for what is no group. -/
def member? (group : Setting) (position : Nat) (name : String) : Option (Option Setting) :=
  match group with
  | .map entries => some (find? name entries)
  | .list items => some items[position]?
  | _ => none

/-- Reads a member of a group; one that is left out has its default. -/
def readMember? {α : Type} (read : Setting → Option α) (default : α) (group : Setting)
    (position : Nat) (name : String) : Option α := do
  match ← group.member? position name with
  | some value => read value
  | none => some default

end Setting

namespace Configuration

/-- Reads the literals of the tables. -/
def table? (group : Setting) : Option TableSyntax := do
  let usual : TableSyntax := {}
  let marker ← group.readMember? Setting.asText? usual.marker 0 "marker"
  let placeholder ← group.readMember? Setting.asText? usual.placeholder 1 "placeholder"
  some ⟨marker, placeholder⟩

/-- Reads the settings of the engine. -/
def engine? (group : Setting) : Option EngineSettings := do
  let usual : EngineSettings := {}
  let ignore ← group.readMember? Setting.asBool? usual.ignoreFactChanges 0 "ignore-fact-changes"
  let restarts ← group.readMember? Setting.asCount? usual.maxRestarts 1 "max-restarts"
  some ⟨ignore, restarts⟩

/-- Reads a configuration; `none` if a setting has the wrong type. -/
def ofSettings? (entries : List (String × Setting)) : Option Configuration := do
  let usual : Configuration := {}
  let group := Setting.map entries
  let directory ← group.readMember? Setting.asText? usual.rulesDirectory.text 0 "rules-dir"
  let table ← group.readMember? table? usual.table 1 "table"
  let engine ← group.readMember? engine? usual.engine 2 "engine"
  let json ← group.readMember? Setting.asBool? usual.json 3 "json"
  some ⟨⟨directory⟩, table, engine, json⟩

/-- The settings that a configuration states, all of them. -/
def toSettings (c : Configuration) : List (String × Setting) :=
  [("rules-dir", .text c.rulesDirectory.text),
    ("table", .map [("marker", .text c.table.marker), ("placeholder", .text c.table.placeholder)]),
    ("engine", .map [("ignore-fact-changes", .bool c.engine.ignoreFactChanges),
      ("max-restarts", .integer c.engine.maxRestarts.toNat)]),
    ("json", .bool c.json)]

/-- The configuration that layers of settings make over the defaults. -/
def ofLayers? (layers : List (List (String × Setting))) : Option Configuration :=
  ofSettings? (layers.foldl Setting.overlayEntries (toSettings {}))

/-- The trees in which a path is looked up: a relative one is sought from the current directory and
    then from each directory above it. -/
def views (tree : FileTree) : List FileTree :=
  (List.range (tree.current.length + 1)).reverse.map fun n =>
    { tree with current := tree.current.take n }

/-- The settings of a configuration file. A missing file has none; one that is not a mapping is
    invalid. -/
def fileSettings? (tree : FileTree) (path : FilePath) : Option (List (String × Setting)) :=
  match (views tree).find? (·.isFile path) with
  | none => some []
  | some view =>
    match view.readText path with
    | .ok text => Yaml.read? text
    | .error _ => none

/-- Reads a configuration file without looking at the environment. -/
def ofFile? (tree : FileTree) (path : FilePath) : Option Configuration := do
  ofLayers? [← fileSettings? tree path]

/-- Reads a configuration file, over which the environment goes. -/
def load? (tree : FileTree) (environment : Environment) (path : FilePath) :
    Option Configuration := do
  ofLayers? [← fileSettings? tree path, environment.settings]

/-- The configuration that the environment makes on its own. -/
def ofEnvironment? (environment : Environment) : Option Configuration :=
  ofLayers? [environment.settings]

/-- Where the sheets are. -/
def rulesPath (c : Configuration) (root : FilePath) : FilePath := root.join c.rulesDirectory

/-- A configuration as JSON. -/
def toJson (c : Configuration) : Json :=
  .object [("rules-dir", .string c.rulesDirectory.text),
    ("table", .object [("marker", .string c.table.marker),
      ("placeholder", .string c.table.placeholder)]),
    ("engine", .object [("ignore-fact-changes", .bool c.engine.ignoreFactChanges),
      ("max-restarts", .number (.integer c.engine.maxRestarts.toNat
        (by have := c.engine.maxRestarts.toNat_lt; omega)))]),
    ("json", .bool c.json)]

/-- A configuration as the text of a configuration file. -/
def toYaml (c : Configuration) : String :=
  let text (indent : Nat) (s : String) : String := String.ofList (Yaml.writeText indent s)
  "rules-dir: " ++ text 0 c.rulesDirectory.text ++
    "table:\n  marker: " ++ text 2 c.table.marker ++
    "  placeholder: " ++ text 2 c.table.placeholder ++
    "engine:\n  ignore-fact-changes: " ++ toString c.engine.ignoreFactChanges ++
    "\n  max-restarts: " ++ toString c.engine.maxRestarts.toNat ++
    "\njson: " ++ toString c.json ++ "\n"

end Configuration

end DecisionTable
