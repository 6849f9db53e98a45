import DecisionTable.Files.Path

/-! # Command-line arguments

What a command line asks for. Some flags belong to every command and may stand anywhere; a flag
may be used once for each command word, except for those that collect values. A flag that asks how
the program is used, or for its version, is answered as soon as it is met: what follows it is not
looked at.
-/

namespace DecisionTable

/-- What a user asks for. -/
inductive Command where
  /-- Compile a sheet and print its rules. -/
  | compile (sheet : String)
  /-- Run a fact through sheets; without names, through all of them. -/
  | decide (sheets : List String) (fact : String)
  /-- List the sheets. -/
  | sheets
  /-- Print the configuration. -/
  | showConfiguration
  /-- Print the path of the configuration file. -/
  | configurationPath
  /-- Print the version of the program. -/
  | version
  /-- Print how the program is used. -/
  | help
  deriving DecidableEq, Repr

/-- What may be said along with every command. -/
structure Options where
  rulesDirectory : Option FilePath := none
  json : Bool := false
  verbose : Bool := false
  quiet : Bool := false
  deriving DecidableEq, Repr

/-- A command with its options. -/
structure Invocation where
  options : Options
  command : Command
  deriving DecidableEq, Repr

/-- What a command line asks for. -/
inductive Request where
  /-- Carry out a command. -/
  | run (invocation : Invocation)
  /-- Print how the program is used, and do nothing else. -/
  | usage
  /-- Print the version of the part of the program that command words name, and do nothing else. -/
  | versionOf (words : List String)
  deriving DecidableEq, Repr

/-- Why the rest of a command line is not looked at. -/
inductive Interruption where
  /-- It does not make sense. -/
  | misuse
  /-- It has been answered. -/
  | answered (request : Request)
  deriving DecidableEq, Repr

/-- A flag of the command line. -/
inductive Flag where
  | rulesDirectory
  | json
  | verbose
  | quiet
  | help
  | version
  | sheet
  | fact
  deriving DecidableEq, Repr

namespace Flag

/-- The flag of a long name. -/
def ofLong? : String → Option Flag
  | "rules-dir" => some rulesDirectory
  | "json" => some json
  | "verbose" => some verbose
  | "quiet" => some quiet
  | "help" => some help
  | "version" => some version
  | "sheet" => some sheet
  | "fact" => some fact
  | _ => none

/-- The flag of a letter. -/
def ofShort? : Char → Option Flag
  | 'v' => some verbose
  | 'q' => some quiet
  | 'h' => some help
  | 'V' => some version
  | 's' => some sheet
  | 'f' => some fact
  | _ => none

/-- Whether a flag has a value. -/
def takesValue : Flag → Bool
  | rulesDirectory | sheet | fact => true
  | json | verbose | quiet | help | version => false

/-- Whether a flag may stand behind some command words. -/
def allowed (words : List String) : Flag → Bool
  | sheet | fact => words == ["decide"]
  | _ => true

end Flag

/-- The arguments read so far. -/
structure Draft where
  options : Options := {}
  /-- The words that name the command. -/
  words : List String := []
  /-- The flags used since the last of those words. -/
  used : List Flag := []
  operands : List String := []
  sheets : List String := []
  fact : Option String := none
  /-- A flag whose value comes next. -/
  pending : Option Flag := none
  /-- Whether no more flags may come. -/
  flagsEnded : Bool := false

namespace Draft

/-- The command words that may come next. -/
def nextWords (d : Draft) : List String :=
  match d.words with
  | [] => ["compile", "decide", "sheets", "config", "version", "help"]
  | ["config"] => ["show", "path"]
  | _ => []

/-- Takes an argument that is no flag. -/
def takeWord (d : Draft) (word : String) : Except Interruption Draft :=
  if !d.flagsEnded && d.nextWords.contains word then
    .ok { d with words := d.words ++ [word], used := [] }
  else if d.words == ["compile"] && d.operands.isEmpty then .ok { d with operands := [word] }
  else .error .misuse

/-- Marks a flag as used. -/
def use (d : Draft) (flag : Flag) : Except Interruption Draft :=
  if !flag.allowed d.words || (flag != .sheet && d.used.contains flag) then .error .misuse
  else .ok { d with used := flag :: d.used }

/-- Takes a flag without a value. -/
def setFlag (d : Draft) (flag : Flag) : Except Interruption Draft := do
  let d ← d.use flag
  match flag with
  | .json => .ok { d with options.json := true }
  | .verbose => .ok { d with options.verbose := true }
  | .quiet => .ok { d with options.quiet := true }
  | .help => .error (.answered .usage)
  | .version => .error (.answered (.versionOf d.words))
  | _ => .error .misuse

/-- Takes a flag with its value. -/
def setValue (d : Draft) (flag : Flag) (value : String) : Except Interruption Draft := do
  let d ← d.use flag
  match flag with
  | .rulesDirectory => .ok { d with options.rulesDirectory := some ⟨value⟩ }
  | .sheet => .ok { d with sheets := d.sheets ++ [value] }
  | .fact => .ok { d with fact := some value }
  | _ => .error .misuse

/-- Takes the letters behind a hyphen. What follows a flag with a value is its value. -/
def takeLetters (d : Draft) : List Char → Except Interruption Draft
  | [] => .ok d
  | letter :: rest =>
    match Flag.ofShort? letter with
    | none => .error .misuse
    | some flag =>
      if flag.takesValue then
        match rest with
        | [] => .ok { d with pending := some flag }
        | '=' :: value => d.setValue flag (String.ofList value)
        | value => d.setValue flag (String.ofList value)
      else do (← d.setFlag flag).takeLetters rest

/-- Takes what stands behind two hyphens: a name, with a value behind an equals sign. -/
def takeLong (d : Draft) (text : List Char) : Except Interruption Draft :=
  match Flag.ofLong? (String.ofList (text.takeWhile (· != '='))), text.dropWhile (· != '=') with
  | none, _ => .error .misuse
  | some flag, [] =>
    if flag.takesValue then .ok { d with pending := some flag } else d.setFlag flag
  | some flag, _ :: value => d.setValue flag (String.ofList value)

/-- Takes the next argument. A flag's value cannot look like a flag. -/
def take (d : Draft) (argument : String) : Except Interruption Draft :=
  if d.flagsEnded then d.takeWord argument
  else
    match argument.toList, d.pending with
    | ['-', '-'], none => .ok { d with flagsEnded := true }
    | '-' :: '-' :: text, none => d.takeLong text
    | '-' :: letter :: rest, none => d.takeLetters (letter :: rest)
    | _, none => d.takeWord argument
    | '-' :: _ :: _, some _ => .error .misuse
    | _, some flag => { d with pending := none }.setValue flag argument

/-- The command that the words and operands stand for. -/
def command? (d : Draft) : Option Command :=
  match d.words, d.operands with
  | [], [] => some .help
  | ["help"], [] => some .help
  | ["compile"], [sheet] => some (.compile sheet)
  | ["decide"], [] => some (.decide d.sheets (d.fact.getD "-"))
  | ["sheets"], [] => some .sheets
  | ["config", "show"], [] => some .showConfiguration
  | ["config", "path"], [] => some .configurationPath
  | ["version"], [] => some .version
  | _, _ => none

end Draft

/-- Reads a command line; `none` if it does not make sense. -/
def Request.ofArguments? (arguments : List String) : Option Request :=
  match arguments.foldlM Draft.take {} with
  | .error .misuse => none
  | .error (.answered request) => some request
  | .ok draft =>
    if draft.pending.isSome then none
    else draft.command?.map fun command => .run ⟨draft.options, command⟩

end DecisionTable
