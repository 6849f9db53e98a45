import DecisionTable.Formula.Expression
import DecisionTable.Json.Printer

/-! # Formulas as nested lists

The shape of a formula as text: operator first, in parentheses, with paths as `(get "a" "b")`.
-/

namespace DecisionTable

/-- A path as a nested list. -/
def FieldPath.nested (path : FieldPath) : String :=
  "(get " ++ String.intercalate " " (path.segments.map Json.quote) ++ ")"

/-- An expression as a nested list. -/
def Expression.nested : Expression → String
  | literal value => value.compact
  | field path => path.nested
  | prefixed .not operand => s!"(! {operand.nested})"
  | prefixed .negate operand => s!"(neg {operand.nested})"
  | infixed op left right => s!"({op.symbol} {left.nested} {right.nested})"

/-- A statement as a nested list. -/
def Statement.nested : Statement → String
  | assign target value => s!"(set {target.nested} {value.nested})"
  | bare e => e.nested

end DecisionTable
