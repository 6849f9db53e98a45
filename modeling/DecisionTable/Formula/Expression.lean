import DecisionTable.Formula.FieldPath

/-! # Expressions and statements

What a condition column and a consequence column of a table hold once a cell has been put
into the column's template.
-/

namespace DecisionTable

/-- Operators before one operand. -/
inductive PrefixOp where
  | not
  | negate
  deriving DecidableEq, Repr

/-- Operators between two operands. -/
inductive InfixOp where
  | or
  | and
  | equal
  | notEqual
  | strictEqual
  | strictNotEqual
  | less
  | lessEqual
  | greater
  | greaterEqual
  | add
  | sub
  | mul
  | div
  | rem
  deriving DecidableEq, Repr

namespace InfixOp

/-- How tightly an operator binds, from 1 to 6. -/
def precedence : InfixOp → Nat
  | or => 1
  | and => 2
  | equal | notEqual | strictEqual | strictNotEqual => 3
  | less | lessEqual | greater | greaterEqual => 4
  | add | sub => 5
  | mul | div | rem => 6

/-- How an operator is spelled. -/
def symbol : InfixOp → String
  | or => "||"
  | and => "&&"
  | equal => "=="
  | notEqual => "!="
  | strictEqual => "==="
  | strictNotEqual => "!=="
  | less => "<"
  | lessEqual => "<="
  | greater => ">"
  | greaterEqual => ">="
  | add => "+"
  | sub => "-"
  | mul => "*"
  | div => "/"
  | rem => "%"

end InfixOp

/-- An expression. -/
inductive Expression where
  | literal (value : Json)
  | field (path : FieldPath)
  | prefixed (op : PrefixOp) (operand : Expression)
  | infixed (op : InfixOp) (left right : Expression)
  deriving DecidableEq

/-- A statement of a consequence. -/
inductive Statement where
  /-- Stores the value of an expression in a field. -/
  | assign (target : FieldPath) (value : Expression)
  /-- Evaluates an expression for its errors only. -/
  | bare (expression : Expression)
  deriving DecidableEq

end DecisionTable
