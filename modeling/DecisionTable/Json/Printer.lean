import DecisionTable.Json.Basic
import DecisionTable.Decimal.Text

/-! # Writing JSON

The compact form has no blank space; the indented form puts each item on a line of its own,
two spaces deeper than its container. Both escape in strings only what must be escaped.
-/

namespace DecisionTable

/-- Doubles in JSON keep a fraction and have an exponent below 10⁻⁵ and from 10¹⁶ on; a tie
    goes to the even digit. -/
def Number.format : NumberFormat where
  tie := .toEven
  keepFraction := true
  isPositional exponent := -5 ≤ exponent && exponent ≤ 15

/-- The text of a number. -/
def Number.write : Number → String
  | .integer value _ => toString value
  | .double x => Number.format.writeFinite x

namespace Json

/-- The digit of a value below sixteen, in lower case. -/
def hexDigit (n : Nat) : Char := Nat.digitChar (n % 16)

/-- A character as it stands in a string. -/
def escapeChar (c : Char) : String :=
  match c with
  | '"' => "\\\""
  | '\\' => "\\\\"
  | '\n' => "\\n"
  | '\r' => "\\r"
  | '\t' => "\\t"
  | c =>
    if c.toNat = 8 then "\\b"
    else if c.toNat = 12 then "\\f"
    else if c.toNat < 32 then
      String.ofList ['\\', 'u', '0', '0', hexDigit (c.toNat / 16), hexDigit c.toNat]
    else c.toString

/-- A string in quotes. -/
def quote (text : String) : String :=
  "\"" ++ String.join (text.toList.map escapeChar) ++ "\""

mutual

/-- The compact form of a value. -/
def compact : Json → String
  | null => "null"
  | bool value => if value then "true" else "false"
  | number n => n.write
  | string text => quote text
  | array items => "[" ++ String.intercalate "," (compactItems items) ++ "]"
  | object members => "\x7b" ++ String.intercalate "," (compactMembers members) ++ "\x7d"

/-- The compact forms of a list of values. -/
def compactItems : List Json → List String
  | [] => []
  | item :: rest => compact item :: compactItems rest

/-- The compact forms of members, each with its name. -/
def compactMembers : List (String × Json) → List String
  | [] => []
  | (key, value) :: rest => (quote key ++ ":" ++ compact value) :: compactMembers rest

end

/-- Puts each line of a container on its own line between its brackets. -/
def block (depth : Nat) (opening closing : String) (lines : List String) : String :=
  if lines.isEmpty then opening ++ closing
  else
    let indent (n : Nat) := "".pushn ' ' (2 * n)
    opening ++ "\n" ++ String.intercalate ",\n" (lines.map (indent (depth + 1) ++ ·)) ++ "\n"
      ++ indent depth ++ closing

mutual

/-- The indented form of a value that stands at a depth. -/
def indented (depth : Nat) : Json → String
  | null => "null"
  | bool value => if value then "true" else "false"
  | number n => n.write
  | string text => quote text
  | array items => block depth "[" "]" (indentedItems (depth + 1) items)
  | object members => block depth "\x7b" "\x7d" (indentedMembers (depth + 1) members)

/-- The indented forms of a list of values. -/
def indentedItems (depth : Nat) : List Json → List String
  | [] => []
  | item :: rest => indented depth item :: indentedItems depth rest

/-- The indented forms of members, each with its name. -/
def indentedMembers (depth : Nat) : List (String × Json) → List String
  | [] => []
  | (key, value) :: rest =>
    (quote key ++ ": " ++ indented depth value) :: indentedMembers depth rest

end

/-- The indented form of a value. -/
def pretty (value : Json) : String := value.indented 0

end Json

end DecisionTable
