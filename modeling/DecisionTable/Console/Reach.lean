import DecisionTable.Console.Session

/-! # What a command may look at

The paths that a command may follow, so that a snapshot of them is all that it needs to see of
the file system.
-/

namespace DecisionTable

/-- The paths that matter for finding and reading the configuration: the project's directory next to
    the current directory and those above it, and the one that the environment names. -/
def projectPaths (current : Location) (environment : Environment) : List FilePath :=
  let names := ProjectDirectory.name :: (environment.get? ProjectDirectory.variableName).toList
  (List.range (current.length + 1)).flatMap fun n =>
    names.map fun name => (FileTree.absolute (current.take n)).join ⟨name⟩

/-- The paths that a command looks at, beside those of the configuration. -/
def Command.paths (directory : FilePath) : Command → List FilePath
  | .compile sheet => directory :: FileTree.sheetCandidates sheet directory
  | .decide names fact =>
    directory :: names.flatMap (FileTree.sheetCandidates · directory) ++
      (match fact.toList with
      | '@' :: path => [⟨String.ofList path⟩]
      | _ => [])
  | .sheets => [directory]
  | _ => []

/-- Whether a command reads standard input. -/
def Command.readsInput : Command → Bool
  | .decide _ fact => fact == "-"
  | _ => false

/-- The paths that a command line looks at, once the paths of the configuration are known. -/
def commandLinePaths (around : Surroundings) (arguments : List String) : List FilePath :=
  match Request.ofArguments? arguments with
  | some (.run invocation) =>
    match Session.start around invocation.options with
    | .ok session => invocation.command.paths session.rulesDirectory
    | .error _ => []
  | _ => []

/-- Whether a command line reads standard input. -/
def readsInput (arguments : List String) : Bool :=
  match Request.ofArguments? arguments with
  | some (.run invocation) => invocation.command.readsInput
  | _ => false

end DecisionTable
