import DecisionTable.Settings.Quoted
import DecisionTable.Text.Blank

/-! # Environment variables

Variables can say what a configuration file says. A variable is named for the setting:
`INSTRUCT_ENGINE__MAX_RESTARTS` stands for `max-restarts` below `engine`. Its value is read as
a truth value, a number, a quoted text or a collection where it looks like one, and is text
otherwise.
-/

namespace DecisionTable

/-- The variables of an environment, in order. -/
structure Environment where
  entries : List (String × String)

namespace Environment

/-- The value of a variable. -/
def get? (environment : Environment) (name : String) : Option String :=
  (environment.entries.find? (·.1 == name)).map (·.2)

/-- What starts the names of the variables that are settings; the case of its letters is free. -/
def settingStart : List Char := "instruct_".toList

/-- Blank space around the parts of a value. -/
def isBlank (c : Char) : Bool :=
  c == ' ' || c == '\t' || c == '\n' || c == Char.ofNat 12 || c == '\r'

/-- Whether a character ends a plain value inside a collection. -/
def isSeparator (c : Char) : Bool := "\x7b\x7d[],".toList.contains c

/-- Whether a character may stand in the name of an entry. -/
def isNameChar (c : Char) : Bool := c.isAlphanum || c == '_' || c == '-'

/-- Digits of a whole number that is at most `limit`. -/
def bounded? (limit : Nat) (digits : List Char) : Option Nat :=
  (Scalar.natOf? 10 digits).bind fun n => if n ≤ limit then some n else none

/-- A whole number, if it fits 64 bits, with or without a sign. -/
def integer? : List Char → Option Int
  | '-' :: digits => (bounded? (UInt64.size / 2) digits).map fun n => -(n : Int)
  | '+' :: digits => (bounded? (UInt64.size - 1) digits).map Int.ofNat
  | digits => (bounded? (UInt64.size - 1) digits).map Int.ofNat

/-- What a value without quotes and brackets stands for. -/
def plain (text : List Char) : Setting :=
  let text := Text.trimmed text
  if text.contains '.' && (Decimal.read? text).isSome then .fraction
  else match integer? text with
    | some n => .integer n
    | none => .text (String.ofList text)

/-- What is behind a word at the front of a text. -/
def behind? (word : String) (text : List Char) : Option (List Char) :=
  if word.toList.isPrefixOf text then some (text.drop word.toList.length) else none

mutual

/-- A value at the front of a text, and what is behind it and its blank space. The fuel is the
    number of characters. -/
def value? : Nat → List Char → Option (Setting × List Char)
  | 0, _ => none
  | fuel + 1, text => do
    let text := text.dropWhile isBlank
    let (value, rest) ←
      match behind? "true" text, behind? "false" text, text with
      | some rest, _, _ => some (Setting.bool true, rest)
      | none, some rest, _ => some (Setting.bool false, rest)
      | none, none, '[' :: rest => (items? fuel rest).map fun (is, r) => (Setting.list is, r)
      | none, none, '{' :: rest => (entries? fuel rest).map fun (es, r) => (Setting.ofEntries es, r)
      | none, none, '"' :: rest =>
        (Quoted.double? rest).map fun (s, r) => (Setting.text (String.ofList s), r)
      | none, none, '\'' :: rest =>
        match rest.dropWhile (· != '\'') with
        | [] => none
        | _ :: r => some (Setting.text (String.ofList (rest.takeWhile (· != '\''))), r)
      | none, none, text =>
        some (plain (text.takeWhile fun c => !isSeparator c), text.dropWhile fun c => !isSeparator c)
    some (value, rest.dropWhile isBlank)

/-- The items of a list up to its end. -/
def items? : Nat → List Char → Option (List Setting × List Char)
  | 0, _ => none
  | _ + 1, ']' :: rest => some ([], rest)
  | fuel + 1, text => do
    let (item, rest) ← value? fuel text
    match rest with
    | ',' :: rest => (items? fuel rest).map fun (is, r) => (item :: is, r)
    | ']' :: rest => some ([item], rest)
    | _ => none

/-- The entries of a map up to its end. -/
def entries? : Nat → List Char → Option (List (String × Setting) × List Char)
  | 0, _ => none
  | _ + 1, '}' :: rest => some ([], rest)
  | fuel + 1, text => do
    let text := text.dropWhile isBlank
    let (name, rest) ← match text with
      | '"' :: rest => Quoted.double? rest
      | text =>
        if text.head?.any isNameChar then
          some (text.takeWhile isNameChar, text.dropWhile isNameChar)
        else none
    match rest.dropWhile isBlank with
    | '=' :: rest => do
      let (value, rest) ← value? fuel rest
      let entry := (String.ofList name, value)
      match rest with
      | ',' :: rest => (entries? fuel rest).map fun (es, r) => (entry :: es, r)
      | '}' :: rest => some ([entry], rest)
      | _ => none
    | _ => none

end

/-- What the value of a variable stands for. One that cannot be read is text as it is. -/
def setting (value : String) : Setting :=
  match value? (2 * value.length + 2) value.toList with
  | some (setting, []) => setting
  | _ => .text value

/-- The rest of a variable's name with levels told by points: two underscores stand for a point, and
    one for a hyphen. -/
def pointed : List Char → List Char
  | '_' :: '_' :: rest => '.' :: pointed rest
  | '_' :: rest => '-' :: pointed rest
  | c :: rest => c :: pointed rest
  | [] => []

/-- The names that lead to the setting of a variable, if it is one. Blank space around the variable's
    name and the case of its letters do not matter, and no name on the way is empty. -/
def path? (name : String) : Option (List String) :=
  let name := Text.trimmed name.toList
  if settingStart.isPrefixOf (name.map Char.toLower) then
    let names := Text.trimmed (pointed (name.drop settingStart.length))
    let path := (String.ofList (names.map Char.toLower)).splitOn "."
    if path.contains "" then none else some path
  else none

/-- What the variables say about settings; a later one goes over those before it. -/
def settings (environment : Environment) : List (String × Setting) :=
  environment.entries.foldl (fun entries (name, value) =>
    match (path? name).map ((setting value).nested ·) with
    | some (.map more) => Setting.overlayEntries entries more
    | _ => entries) []

end Environment

end DecisionTable
