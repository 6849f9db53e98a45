/-! # Paths

A path is text with slashes. Its pieces are what stands between the slashes; its components
are the pieces that name something, so neither empty pieces nor, past the first, single
points.
-/

namespace DecisionTable

/-- A path as it is written. -/
structure FilePath where
  text : String
  deriving DecidableEq, Repr

namespace FilePath

/-- Splits a text at slashes. -/
def splitSlashes : List Char → List (List Char)
  | [] => [[]]
  | c :: rest =>
    match splitSlashes rest with
    | [] => [[c]]
    | piece :: pieces => if c = '/' then [] :: piece :: pieces else (c :: piece) :: pieces

/-- What stands between the slashes. -/
def pieces (p : FilePath) : List String := (splitSlashes p.text.toList).map String.ofList

/-- Whether a path starts at the root. -/
def isAbsolute (p : FilePath) : Bool := p.text.toList.head? == some '/'

/-- Whether a piece names nothing. -/
def isIdle (piece : String) : Bool := piece == "" || piece == "."

/-- The components: a single point counts only at the start. -/
def components (p : FilePath) : List String :=
  match p.pieces with
  | [] => []
  | first :: rest =>
    let rest := rest.filter fun piece => !isIdle piece
    if first == "" then rest else first :: rest

/-- The last component, unless it leads up or nowhere. -/
def fileName? (p : FilePath) : Option String :=
  match p.components.getLast? with
  | some name => if name == "." || name == ".." then none else some name
  | none => none

/-- Splits a file name at its last point. A name without one, or with nothing else before it, has
    no extension. -/
def splitName (name : String) : String × Option String :=
  let reversed := name.toList.reverse
  let extension := reversed.takeWhile (· != '.')
  match reversed.dropWhile (· != '.') with
  | [] | [_] => (name, none)
  | _ :: stem => (String.ofList stem.reverse, some (String.ofList extension.reverse))

/-- The file name without its extension. -/
def stem? (p : FilePath) : Option String := p.fileName?.map fun name => (splitName name).1

/-- The extension of the file name. -/
def extension? (p : FilePath) : Option String := p.fileName?.bind fun name => (splitName name).2

/-- A path that continues another one. An absolute path stands for itself. -/
def join (p q : FilePath) : FilePath :=
  if q.isAbsolute || p.text.isEmpty then q
  else if p.text.endsWith "/" then ⟨p.text ++ q.text⟩
  else ⟨p.text ++ "/" ++ q.text⟩

/-- Drops the pieces at the end that name nothing; `pieces` is in reverse, and its last item is
    the first piece, which stays. -/
def dropIdle : List String → List String
  | [first] => [first]
  | piece :: rest => if isIdle piece then dropIdle rest else piece :: rest
  | [] => []

/-- The path without its last component, unless there is none. -/
def parent? (p : FilePath) : Option FilePath :=
  if p.components.isEmpty || p.text.isEmpty then none
  else
    match dropIdle p.pieces.reverse with
    | [] | [_] => some ⟨""⟩
    | _ :: rest =>
      match dropIdle rest with
      | [""] => some ⟨"/"⟩
      | kept => some ⟨String.intercalate "/" kept.reverse⟩

end FilePath

end DecisionTable
