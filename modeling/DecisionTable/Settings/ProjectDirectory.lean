import DecisionTable.Files.Tree
import DecisionTable.Settings.Environment

/-! # The directory that marks a project

A project's root holds a directory of a fixed name with the project's configuration. It is found
from any place below the root, or named by an environment variable.
-/

namespace DecisionTable.ProjectDirectory

/-- The name of the directory. -/
def name : String := ".instruct"

/-- The variable that names the directory of the project to use. -/
def variableName : String := "INSTRUCT_DIR"

/-- The nearest directory of that name next to or above a place. -/
def above? (tree : FileTree) (place : Location) : Option Location :=
  (((List.range (place.length + 1)).reverse.map place.take).map (· ++ [name])).find?
    tree.hasDirectory

/-- The directory of the project that a path lies in. Nothing is found from a path where nothing
    is. -/
def walk? (tree : FileTree) (start : FilePath) : Option FilePath :=
  match tree.locate start with
  | .ok place =>
    if tree.hasPlace place then (above? tree place).map FileTree.absolute else none
  | .error _ => none

/-- The directory of the project to use: the one that the environment names, if it is there, or else
    the one that a path lies in. -/
def find? (tree : FileTree) (environment : Environment) (start : FilePath) : Option FilePath :=
  match (environment.get? variableName).map FilePath.mk with
  | some path => if tree.isDirectory path then some path else walk? tree start
  | none => walk? tree start

/-- The directory for a project root; a path that already ends in the directory's name stands for the
    directory. -/
def ofRoot (root : FilePath) : FilePath :=
  if root.components.getLast? == some name then root else root.join ⟨name⟩

/-- Makes the directory for a project root where it is missing. -/
def ensure (tree : FileTree) (root : FilePath) : Except FileFault (FilePath × FileTree) := do
  let directory := ofRoot root
  return (directory, ← tree.makeDirectory directory)

/-- The root of the project that a directory belongs to. -/
def root (directory : FilePath) : FilePath := directory.parent?.getD directory

end DecisionTable.ProjectDirectory
