import DecisionTable.Formula.Expression
import DecisionTable.Binary64.Arithmetic
import DecisionTable.Json.Coercion

/-! # Evaluating formulas

An expression has a value or an error in each fact. A statement gives a new fact; where it
fails the old one stands.
-/

namespace DecisionTable

namespace Json

/-- The operand of an arithmetic operator: null counts as zero, and a value that counts as no
    number spoils the result. -/
def operandNumber (value : Json) : Binary64 :=
  match value with
  | null => .finite (.zero false)
  | value => value.toNumber?.getD .nan

/-- Whether a value is a string. -/
def isString : Json → Bool
  | string _ => true
  | _ => false

/-- The result of an arithmetic operator on the numbers two values count as. -/
def arithmetic (f : Binary64 → Binary64 → Binary64) (a b : Json) : Json :=
  ofBinary64 (f a.operandNumber b.operandNumber)

end Json

/-- The value of a prefix operator. -/
def PrefixOp.apply (op : PrefixOp) (a : Json) : Json :=
  match op with
  | not => .bool !a.truthy
  | negate => .ofBinary64 (-a.operandNumber)

/-- The value of an infix operator on the values of both sides. The logical operators yield one
    of them. -/
def InfixOp.apply (op : InfixOp) (a b : Json) : Json :=
  match op with
  | or => if a.truthy then a else b
  | and => if a.truthy then b else a
  | equal => .bool (a.looseEquals b)
  | notEqual => .bool !a.looseEquals b
  | strictEqual => .bool (a.strictEquals b)
  | strictNotEqual => .bool !a.strictEquals b
  | less => .bool (a.compare? b == some .lt)
  | lessEqual => .bool (a.compare? b == some .lt || a.compare? b == some .eq)
  | greater => .bool (a.compare? b == some .gt)
  | greaterEqual => .bool (a.compare? b == some .gt || a.compare? b == some .eq)
  | add =>
    if a.isString || b.isString then .string (a.render ++ b.render)
    else Json.arithmetic (· + ·) a b
  | sub => Json.arithmetic (· - ·) a b
  | mul => Json.arithmetic (· * ·) a b
  | div => Json.arithmetic (· / ·) a b
  | rem => Json.arithmetic (· % ·) a b

/-- Whether the left value alone decides the result, so that the right side is not evaluated. -/
def InfixOp.decided (op : InfixOp) (a : Json) : Bool :=
  match op with
  | or => a.truthy
  | and => !a.truthy
  | _ => false

namespace Expression

/-- The value of an expression in a fact. -/
def eval (fact : Fact) : Expression → Except EvalError Json
  | literal value => .ok value
  | field path => path.read fact
  | prefixed op operand => do return op.apply (← operand.eval fact)
  | infixed op left right => do
    let a ← left.eval fact
    if op.decided a then return a
    let b ← right.eval fact
    return op.apply a b

/-- Whether the value of an expression counts as true. -/
def holds (fact : Fact) (e : Expression) : Except EvalError Bool := do
  return (← e.eval fact).truthy

end Expression

namespace Statement

/-- The fact after a statement. The value is evaluated before the target is looked at. -/
def run (fact : Fact) : Statement → Except EvalError Fact
  | assign target value => do target.assign (← value.eval fact) fact
  | bare e => do
    let _ ← e.eval fact
    return fact

end Statement

end DecisionTable
