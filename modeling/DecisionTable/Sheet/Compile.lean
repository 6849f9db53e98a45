import DecisionTable.Rule.Set
import DecisionTable.Sheet.Layout
import DecisionTable.Sheet.Records

/-! # From tables to rules

Each text of a record is put into the template of its column, and the result is parsed: a
condition as one term, a consequence as statements. All rules of a table compile, or the
first fault is reported.
-/

namespace DecisionTable

/-- Splits a text around the first place where a pattern stands in it. -/
def splitAtFirst? (pattern : List Char) : List Char → Option (List Char × List Char)
  | [] => if pattern.isEmpty then some ([], []) else none
  | c :: rest =>
    if pattern.isPrefixOf (c :: rest) then some ([], (c :: rest).drop pattern.length)
    else (splitAtFirst? pattern rest).map fun (front, behind) => (c :: front, behind)

/-- Puts a value in the place of the first placeholder of a template. -/
def substitute (template placeholder value : String) : String :=
  match splitAtFirst? placeholder.toList template.toList with
  | some (front, behind) => String.ofList front ++ value ++ String.ofList behind
  | none => template

/-- A parsed-to-be text and the column it comes from. -/
structure Fragment where
  column : UInt32
  text : String
  deriving DecidableEq, Repr

namespace Compile

/-- Puts the texts of one side of a record into the templates of their columns. -/
def fragments (rule : String) (bindings : ColumnMap) (placeholder : String) :
    ColumnMap → Except TableError (List Fragment)
  | [] => .ok []
  | (column, text) :: rest =>
    match bindings.get? column with
    | none => .error (.missingBinding rule column)
    | some template =>
      (fragments rule bindings placeholder rest).map
        (⟨column, substitute template placeholder text⟩ :: ·)

/-- The error for a fragment that is no formula. -/
def expressionError (rule : String) (parts : List Fragment) (e : FragmentError) : TableError :=
  let part := parts.getD e.index ⟨0, ""⟩
  .expression rule part.column part.text e.cause

/-- Compiles one side of a record. -/
def side {α : Type} (rule : String) (bindings : ColumnMap) (placeholder : String)
    (parse : List String → Except FragmentError α) (texts : ColumnMap) : Except TableError α := do
  let parts ← fragments rule bindings placeholder texts
  (parse (parts.map (·.text))).mapError (expressionError rule parts)

/-- Compiles a record, its conditions first. -/
def record (bindings : ColumnMap) (syn : TableSyntax) (name : String) (r : RuleRecord) :
    Except TableError CompiledRule := do
  let condition ← side name bindings syn.placeholder Condition.parse r.conditions
  let consequence ← side name bindings syn.placeholder Consequence.parse r.consequences
  return ⟨name, condition, consequence⟩

/-- Compiles records in order, up to the first fault. -/
def records (bindings : ColumnMap) (syn : TableSyntax) :
    RuleRecords → Except TableError RuleSet
  | [] => .ok []
  | (name, r) :: rest => do
    let rule ← record bindings syn name r
    let rules ← records bindings syn rest
    return rule :: rules

end Compile

/-- Compiles the table on a grid. -/
def Grid.compile (grid : Grid) (syn : TableSyntax) : Except TableError RuleSet := do
  let (layout, cells) ← Layout.detect grid syn
  Compile.records layout.bindings syn (RuleRecords.ofCells layout.gapColumn cells)

end DecisionTable
