import DecisionTable.Console.Reach

/-! # The program

Takes a snapshot of the part of the file system that a command line may look at, runs the
command on it, and prints the outcome.
-/

namespace DecisionTable

/-- The place of a path, without looking at the file system. -/
def placeOf (current : Location) (path : FilePath) : Location :=
  path.pieces.foldl (fun place piece =>
    if FilePath.isIdle piece then place
    else if piece == ".." then place.dropLast
    else place ++ [piece]) (if path.isAbsolute then [] else current)

/-- Adds the file at a place, if there is one. -/
def addFileAt (tree : FileTree) (place : Location) : IO FileTree := do
  let path := (← IO.currentDir) / (FileTree.absolute place).text
  let bytes ← IO.FS.readBinFile path
  return tree.addFile place ⟨.bytes bytes.toList, (← path.metadata).modified.sec⟩

/-- Adds what is at a place: a directory with its files, or a file. What cannot be read is passed
    over. -/
def addPlace (tree : FileTree) (place : Location) : IO FileTree := do
  let path := (← IO.currentDir) / (FileTree.absolute place).text
  if ← path.isDir then
    let mut tree := tree.addDirectory place
    for file in ← path.readDir do
      let inner := place ++ [file.fileName]
      tree ←
        if ← file.path.isDir then pure (tree.addDirectory inner)
        else try addFileAt tree inner catch _ => pure tree
    return tree
  else if ← path.pathExists then
    try addFileAt tree place catch _ => return tree
  else
    return tree

/-- Adds what paths lead to, and the directories on the way. -/
def addPaths (tree : FileTree) (paths : List FilePath) : IO FileTree := do
  let mut tree := tree
  for path in paths do
    let place := placeOf tree.current path
    if !tree.hasPlace place then tree ← addPlace tree place
  return tree

/-- The variables of the environment. -/
def readEnvironment : IO Environment := do
  let bytes ← try IO.FS.readBinFile "/proc/self/environ" catch _ => pure ByteArray.empty
  let text := (String.fromUTF8? bytes).getD ""
  return ⟨(text.splitOn "\x00").filterMap fun item =>
    match item.splitOn "=" with
    | name :: value :: more => some (name, "=".intercalate (value :: more))
    | _ => none⟩

/-- The bytes of a stream up to its end. -/
partial def readAll (stream : IO.FS.Stream) (bytes : ByteArray) : IO ByteArray := do
  let more ← stream.read 65536
  if more.isEmpty then return bytes else readAll stream (bytes ++ more)

end DecisionTable

open DecisionTable in
/-- Runs the command line. -/
def main (arguments : List String) : IO UInt32 := do
  let environment ← readEnvironment
  let current := placeOf [] ⟨(← IO.currentDir).toString⟩
  let bare : FileTree := ⟨[], [], current⟩
  let known ← addPaths (bare.addDirectory current) (projectPaths current environment)
  let tree ← addPaths known (commandLinePaths ⟨known, environment, []⟩ arguments)
  let input ←
    if readsInput arguments then readAll (← IO.getStdin) ByteArray.empty
    else pure ByteArray.empty
  let outcome := runCommandLine ⟨tree, environment, input.toList⟩ arguments
  IO.print outcome.output
  IO.eprint outcome.errors
  return UInt32.ofNat outcome.code
