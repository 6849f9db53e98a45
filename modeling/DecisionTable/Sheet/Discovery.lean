import DecisionTable.Files.Tree

/-! # Finding sheets

Which files of a directory are sheets, which file a name stands for, and reading them.
-/

namespace DecisionTable

namespace FileTree

/-- Reads the sheet file at a path. The format is told by the path before the file is opened. -/
def loadGrid (tree : FileTree) (path : FilePath) : Except TableError Grid := do
  let format ← SheetFormat.ofPath path
  let file ← (tree.file path).mapError .file
  format.decode file.content

/-- Compiles the sheet file at a path. -/
def compileSheet (tree : FileTree) (path : FilePath) (syn : TableSyntax) :
    Except TableError RuleSet := do
  (← tree.loadGrid path).compile syn

/-- Whether a file name marks a file as hidden or as a lock left by a spreadsheet program. -/
def isHiddenName (name : String) : Bool := name.startsWith "." || name.startsWith "~$"

/-- Whether a path leads to a sheet file that is not hidden. -/
def isSheetFile (tree : FileTree) (path : FilePath) : Bool :=
  !(path.fileName?.any isHiddenName) && tree.isFile path && (SheetFormat.ofPath path).isOk

/-- The sheet files of a directory by name. A directory that does not exist has none. -/
def listSheets (tree : FileTree) (directory : FilePath) : List FilePath :=
  if tree.isDirectory directory then
    let names := (tree.fileNames directory).mergeSort fun a b => a ≤ b
    (names.map fun name => directory.join ⟨name⟩).filter tree.isSheetFile
  else
    []

/-- The paths that a name may stand for: the path itself, or one in the directory under that name, or
    under the name with the extension of a format. -/
def sheetCandidates (name : String) (directory : FilePath) : List FilePath :=
  ⟨name⟩ :: directory.join ⟨name⟩ ::
    SheetFormat.all.map fun f => directory.join ⟨s!"{name}.{f.extension}"⟩

/-- The file that a name stands for: the first of its paths that leads to a file. -/
def findSheet (tree : FileTree) (name : String) (directory : FilePath) :
    Except TableError FilePath :=
  match (sheetCandidates name directory).find? tree.isFile with
  | some path => .ok path
  | none => .error (.sheetNotFound name directory.text)

end FileTree

end DecisionTable
