import DecisionTable.Formula.Expression
import DecisionTable.Json.Coercion

/-! # Tokens and parse errors -/

namespace DecisionTable

/-- A token of a formula. -/
inductive Token where
  | number (x : Binary64)
  | string (text : String)
  | word (name : String)
  /-- `!` -/
  | bang
  | operator (op : InfixOp)
  /-- `=` -/
  | assign
  | dot
  | openParen
  | closeParen
  | openBracket
  | closeBracket
  | semicolon
  /-- A line break: it separates statements, and means nothing inside an expression. -/
  | newline
  deriving DecidableEq

/-- A token as error messages show it. -/
def Token.text : Token → String
  | number x => s!"number {NumberFormat.plain.write x}"
  | string text => s!"string '{text}'"
  | word name => s!"'{name}'"
  | bang => "'!'"
  | operator op => s!"'{op.symbol}'"
  | assign => "'='"
  | dot => "'.'"
  | openParen => "'('"
  | closeParen => "')'"
  | openBracket => "'['"
  | closeBracket => "']'"
  | semicolon => "';'"
  | newline => "line break"

/-- A token and the bytes before it. -/
structure Located where
  token : Token
  offset : Nat
  deriving DecidableEq

/-- What the parser looked for. -/
inductive Expected where
  | expression
  | endOfExpression
  | endOfStatement
  | closeParen
  | closeBracket
  | memberOfThis
  | fieldName
  | stringOrIndex
  deriving DecidableEq, Repr

/-- An expectation as error messages show it. -/
def Expected.text : Expected → String
  | expression => "an expression"
  | endOfExpression => "end of expression"
  | endOfStatement => "';' or end of statement"
  | closeParen => "')'"
  | closeBracket => "']'"
  | memberOfThis => "'.' after 'this'"
  | fieldName => "a field name after '.'"
  | stringOrIndex => "a string or index inside '[]'"

/-- Deepest nesting of parentheses, prefix operators and chained infix operators. -/
def maxDepth : Nat := 256

/-- Why a text is not a formula. Offsets count bytes. -/
inductive ParseError where
  | unexpectedChar (c : Char) (offset : Nat)
  | unterminatedString (offset : Nat)
  | invalidNumber (text : String) (offset : Nat)
  | unexpected (found : Token) (expected : Expected) (offset : Nat)
  | unexpectedEnd (expected : Expected)
  | invalidTarget (offset : Nat)
  | tooDeep (offset : Nat)
  | empty
  deriving DecidableEq

/-- The text of a parse error. -/
def ParseError.message : ParseError → String
  | unexpectedChar c offset => s!"unexpected character '{c}' at offset {offset}"
  | unterminatedString offset => s!"unterminated string starting at offset {offset}"
  | invalidNumber text offset => s!"invalid number '{text}' at offset {offset}"
  | unexpected found expected offset =>
    s!"unexpected {found.text} at offset {offset}, expected {expected.text}"
  | unexpectedEnd expected => s!"unexpected end of input, expected {expected.text}"
  | invalidTarget offset => s!"invalid assignment target at offset {offset}"
  | tooDeep offset => s!"expression nested deeper than {maxDepth} levels at offset {offset}"
  | empty => "empty expression"

end DecisionTable
