import DecisionTable.Settings.Yaml.Character

/-! # Places in a configuration file

A place knows what is left of the text, and where in the text and on its line it is.
-/

namespace DecisionTable.Yaml

/-- A place in a text. -/
structure Cursor where
  /-- What is left of the text. -/
  rest : List Char
  /-- The characters before the place. -/
  index : Nat := 0
  /-- The lines before that of the place. -/
  line : Nat := 0
  /-- The characters before the place on its line. -/
  column : Nat := 0

namespace Cursor

/-- The place behind the next character. -/
def advance (c : Cursor) : Cursor :=
  match c.rest with
  | [] => c
  | next :: rest =>
    if isBreak next then ⟨rest, c.index + 1, c.line + 1, 0⟩
    else ⟨rest, c.index + 1, c.line, c.column + 1⟩

/-- The place behind a number of characters. -/
def skip (c : Cursor) : Nat → Cursor
  | 0 => c
  | n + 1 => c.advance.skip n

/-- The place behind the characters of a kind. -/
def skipWhile (c : Cursor) (p : Char → Bool) : Cursor := c.skip (c.rest.takeWhile p).length

/-- The place where only `rest` is left, which is an end of the text. -/
def upTo (c : Cursor) (rest : List Char) : Cursor := c.skip (c.rest.length - rest.length)

/-- Whether a character comes next. -/
def sees (c : Cursor) (next : Char) : Bool := c.rest.head? == some next

/-- Whether a gap or the end of the text comes next. -/
def atGap (c : Cursor) : Bool := startsGap c.rest

/-- Whether a marker of three characters stands here, at the start of a line. -/
def atMarker (c : Cursor) (marker : String) : Bool :=
  c.column == 0 && marker.toList.isPrefixOf c.rest && startsGap (c.rest.drop 3)

/-- Whether a document starts or ends here. -/
def atBoundary (c : Cursor) : Bool := c.atMarker "---" || c.atMarker "..."

/-- The end of a line behind blank space and a comment; `none` if more stands there. -/
def restOfLine? (c : Cursor) : Option Cursor :=
  let c := c.skipWhile isBlank
  let c := if c.sees '#' then c.skipWhile (!isBreak ·) else c
  match c.rest with
  | [] => some c
  | next :: _ => if isBreak next then some c.advance else none

end Cursor

end DecisionTable.Yaml
