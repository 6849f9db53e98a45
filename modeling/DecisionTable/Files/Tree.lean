import DecisionTable.Files.Path
import DecisionTable.Sheet.Format

/-! # File trees

The directories and files that a program sees, by the names that lead to them from the root.
-/

namespace DecisionTable

/-- The names that lead from the root to a place. -/
abbrev Location := List String

/-- A file. -/
structure StoredFile where
  content : FileContent
  /-- When the file was last changed, in seconds since 1970. -/
  modified : Int

/-- Directories and files. Every directory above a listed one is listed too. -/
structure FileTree where
  directories : List Location
  files : List (Location × StoredFile)
  /-- Where relative paths start. -/
  current : Location

namespace FileTree

/-- Whether a place is a directory. The root always is. -/
def hasDirectory (tree : FileTree) (place : Location) : Bool :=
  place.isEmpty || tree.directories.contains place

/-- The file at a place. -/
def fileAt? (tree : FileTree) (place : Location) : Option StoredFile :=
  (tree.files.find? (·.1 == place)).map (·.2)

/-- Whether something is at a place. -/
def hasPlace (tree : FileTree) (place : Location) : Bool :=
  tree.hasDirectory place || (tree.fileAt? place).isSome

/-- Follows pieces of a path from a place. Each piece, even an idle one, must start in a
    directory. -/
def follow (tree : FileTree) (place : Location) : List String → Except FileFault Location
  | [] => .ok place
  | piece :: rest =>
    if tree.hasDirectory place then
      if FilePath.isIdle piece then follow tree place rest
      else if piece == ".." then follow tree place.dropLast rest
      else follow tree (place ++ [piece]) rest
    else if (tree.fileAt? place).isSome then .error .notDirectory
    else .error .notFound

/-- The place that a path leads to, whether or not something is there. -/
def locate (tree : FileTree) (path : FilePath) : Except FileFault Location :=
  if path.text.isEmpty then .error .notFound
  else tree.follow (if path.isAbsolute then [] else tree.current) path.pieces

/-- Whether a path leads to a directory. -/
def isDirectory (tree : FileTree) (path : FilePath) : Bool :=
  match tree.locate path with
  | .ok place => tree.hasDirectory place
  | .error _ => false

/-- Whether a path leads to a file. -/
def isFile (tree : FileTree) (path : FilePath) : Bool :=
  match tree.locate path with
  | .ok place => (tree.fileAt? place).isSome
  | .error _ => false

/-- The file that a path leads to. -/
def file (tree : FileTree) (path : FilePath) : Except FileFault StoredFile := do
  let place ← tree.locate path
  match tree.fileAt? place with
  | some file => .ok file
  | none => .error (if tree.hasDirectory place then .isDirectory else .notFound)

/-- The text of the file that a path leads to. -/
def readText (tree : FileTree) (path : FilePath) : Except FileFault String := do
  match (← tree.file path).content with
  | .bytes bytes => (Utf8.decode bytes).mapError fun _ => .notUtf8
  | .workbook _ => .error .notUtf8

/-- The names of the files in the directory that a path leads to. -/
def fileNames (tree : FileTree) (path : FilePath) : List String :=
  match tree.locate path with
  | .ok place => tree.files.filterMap fun (location, _) =>
      if location.dropLast == place then location.getLast? else none
  | .error _ => []

/-- The path from the root to a place. -/
def absolute (place : Location) : FilePath := ⟨"/" ++ String.intercalate "/" place⟩

/-- The path from the root to where a path leads, if something is there. -/
def canonical? (tree : FileTree) (path : FilePath) : Option FilePath :=
  match tree.locate path with
  | .ok place =>
    if tree.hasPlace place then some (absolute place) else none
  | .error _ => none

/-- Adds a directory and those above it. -/
def addDirectory (tree : FileTree) (place : Location) : FileTree :=
  let onTheWay := (List.range (place.length + 1)).map place.take
  let missing := onTheWay.filter fun above => !tree.hasDirectory above
  { tree with directories := tree.directories ++ missing }

/-- Adds a file and the directories above it; it takes the place of a file already there. -/
def addFile (tree : FileTree) (place : Location) (file : StoredFile) : FileTree :=
  let tree := tree.addDirectory place.dropLast
  { tree with files := tree.files.filter (·.1 != place) ++ [(place, file)] }

/-- Follows pieces of a path and makes the directories that are missing on the way. -/
def makeFrom (tree : FileTree) (place : Location) : List String → Except FileFault FileTree
  | [] => .ok tree
  | piece :: rest =>
    if FilePath.isIdle piece then makeFrom tree place rest
    else if piece == ".." then makeFrom tree place.dropLast rest
    else
      let place := place ++ [piece]
      if (tree.fileAt? place).isSome then .error .notDirectory
      else makeFrom (tree.addDirectory place) place rest

/-- Makes the directory that a path leads to, and those above it. -/
def makeDirectory (tree : FileTree) (path : FilePath) : Except FileFault FileTree :=
  tree.makeFrom (if path.isAbsolute then [] else tree.current) path.pieces

end FileTree

end DecisionTable
