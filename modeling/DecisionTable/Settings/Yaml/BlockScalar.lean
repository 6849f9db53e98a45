import DecisionTable.Settings.Yaml.Cursor

/-! # Block scalars

Scalars that are made of whole lines, which stand deeper than what they belong to. Literal ones
keep their line breaks, folded ones join lines. The header says what becomes of the breaks at the
end, and may say how deep the lines stand.
-/

namespace DecisionTable.Yaml.BlockScalar

/-- What becomes of the line breaks at the end of a scalar. -/
inductive Ending where
  /-- The last line has a break if it has one in the file. -/
  | clip
  | strip
  | keep
  deriving DecidableEq, Repr

/-- What stands behind the bar of a scalar: its ending, and by how much it is indented. -/
structure Header where
  ending : Ending := .clip
  indentation : Option Nat := none

/-- The ending that a sign stands for. -/
def ending? : Char → Option Ending
  | '-' => some .strip
  | '+' => some .keep
  | _ => none

/-- The number that a digit other than zero stands for. -/
def indentation? (c : Char) : Option Nat :=
  if c.isDigit && c != '0' then some (c.toNat - '0'.toNat) else none

/-- The header at the front of a text, and its length. The sign and the digit may come in either
    order. -/
def header (text : List Char) : Header × Nat :=
  let first := text.head?
  let second := (text.drop 1).head?
  match first.bind ending?, first.bind indentation? with
  | some e, _ =>
    match second.bind indentation? with
    | some n => (⟨e, some n⟩, 2)
    | none => (⟨e, none⟩, 1)
  | none, some n =>
    match second.bind ending? with
    | some e => (⟨e, some n⟩, 2)
    | none => (⟨.clip, some n⟩, 1)
  | none, none => ({}, 0)

/-- The breaks of empty lines and the indentation behind them: the breaks, the deepest column met,
    and the place of the text. As long as the indentation is not known it ends at the text; no tab
    may stand in it. The fuel is more than the number of characters. -/
def skipEmpty? (indent : Option Nat) : Nat → Cursor → Option (List Char × Nat × Cursor)
  | 0, _ => none
  | fuel + 1, c =>
    let spaces := (c.rest.takeWhile (· == ' ')).length
    let inside := match indent with
      | some n => min spaces (n - c.column)
      | none => spaces
    let c := c.skip inside
    if c.sees '\t' && indent.all (c.column < ·) then none
    else if c.rest.head?.any isBreak then
      (skipEmpty? indent fuel c.advance).map fun (breaks, deepest, behind) =>
        (c.rest.take 1 ++ breaks, max c.column deepest, behind)
    else some ([], c.column, c)

/-- The lines of a scalar under way. -/
structure Draft where
  text : List Char := []
  /-- The break behind the text, if there is one. -/
  lastBreak : List Char := []
  /-- The breaks of the empty lines behind that. -/
  moreBreaks : List Char := []
  /-- Whether the last line starts with blank space. -/
  blankStart : Bool := false

/-- Adds a line. In a folded scalar a break between two lines that start with text becomes a space,
    or nothing before empty lines. -/
def Draft.addLine (folded : Bool) (d : Draft) (line : List Char) : Draft :=
  let blankStart := line.head?.any isBlank
  let joint :=
    if folded && d.lastBreak == ['\n'] && !d.blankStart && !blankStart then
      if d.moreBreaks.isEmpty then [' '] else []
    else d.lastBreak
  ⟨d.text ++ joint ++ d.moreBreaks ++ line, [], [], blankStart⟩

/-- Adds the lines that stand at the indentation. The fuel is more than the number of characters. -/
def readLines? (folded : Bool) (indent : Nat) : Nat → Draft → Cursor → Option (Draft × Cursor)
  | 0, _, _ => none
  | fuel + 1, d, c =>
    if c.column == indent && !c.rest.isEmpty then do
      let line := c.rest.takeWhile (!isBreak ·)
      let d := d.addLine folded line
      let c := c.skip line.length
      let (breaks, _, behind) ← skipEmpty? (some indent) (fuel + 1) c.advance
      readLines? folded indent fuel
        { d with lastBreak := c.rest.take 1, moreBreaks := breaks } behind
    else some (d, c)

/-- The scalar that starts here with its bar, inside of a margin, and the place behind it. -/
def read? (margin : Nat) (c : Cursor) : Option (List Char × Cursor) := do
  let fuel := c.rest.length + 1
  let folded := c.sees '>'
  let (header, length) := header (c.rest.drop 1)
  let c ← (c.skip (length + 1)).restOfLine?
  let given := header.indentation.map (margin - 1 + ·)
  let (breaks, deepest, start) ← skipEmpty? given fuel c
  let indent := given.getD (max deepest (max margin 1))
  let (d, behind) ← readLines? folded indent fuel { moreBreaks := breaks } start
  some (match header.ending with
    | .strip => d.text
    | .clip => d.text ++ d.lastBreak
    | .keep => d.text ++ d.lastBreak ++ d.moreBreaks, behind)

end DecisionTable.Yaml.BlockScalar
