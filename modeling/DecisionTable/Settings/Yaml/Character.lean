/-! # Characters of configuration files

The classes of characters that configuration files tell apart, and the characters that a file may
hold at all.
-/

namespace DecisionTable.Yaml

/-- Blank space inside a line. -/
def isBlank (c : Char) : Bool := c == ' ' || c == '\t'

/-- Whether a character ends a line. -/
def isBreak (c : Char) : Bool := c == '\n' || c.toNat == 0x2028 || c.toNat == 0x2029

/-- Blank space inside or between lines. -/
def isSpace (c : Char) : Bool := isBlank c || isBreak c

/-- Whether a text starts with blank space or has ended. -/
def startsGap (text : List Char) : Bool := text.head?.all isSpace

/-- Whether a character may stand in the name of an anchor or a directive. -/
def isWord (c : Char) : Bool := c.isAlphanum || c == '_' || c == '-'

/-- Characters that mean something to a flow collection. -/
def flowMarks : List Char := ",[]\x7b\x7d".toList

/-- Characters that a plain scalar cannot start with. -/
def indicators : List Char := flowMarks ++ "#&*!|>'\"%@\x60".toList

/-- Whether a file may hold a character. -/
def isAllowed (c : Char) : Bool :=
  let n := c.toNat
  n == 0x9 || n == 0xA || n == 0xD || (0x20 ≤ n && n ≤ 0x7E) || n == 0x85 ||
    (0xA0 ≤ n && n != 0xFEFF && n != 0xFFFE && n != 0xFFFF)

/-- A text whose lines end in one way: with a line feed, unless with a separator of lines or
    paragraphs. -/
def withLineFeeds : List Char → List Char
  | '\r' :: '\n' :: rest => '\n' :: withLineFeeds rest
  | c :: rest => (if c == '\r' || c.toNat == 0x85 then '\n' else c) :: withLineFeeds rest
  | [] => []

/-- A text without the mark of its byte order. -/
def withoutMark : List Char → List Char
  | c :: rest => if c.toNat == 0xFEFF then rest else c :: rest
  | [] => []

/-- The text of a file, ready to be read; `none` if it holds a character that no file may hold. -/
def legible? (text : List Char) : Option (List Char) :=
  let text := withoutMark text
  if text.all isAllowed then some (withLineFeeds text) else none

end DecisionTable.Yaml
