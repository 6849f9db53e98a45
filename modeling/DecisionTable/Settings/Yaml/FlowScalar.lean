import DecisionTable.Settings.Scalar
import DecisionTable.Settings.Yaml.Cursor

/-! # Quoted and plain scalars

Scalars that run on over several lines. A gap between two lines is folded: one line break becomes
a space, and of several the first is dropped.
-/

namespace DecisionTable.Yaml

/-- What is read of a gap inside a scalar. -/
def foldGap (gap : List Char) : List Char :=
  match gap.filter isBreak with
  | [] => gap
  | '\n' :: [] => [' ']
  | '\n' :: more => more
  | breaks => breaks

/-- Kind of quotes. -/
inductive Quote where
  /-- Between single quotes, a doubled quote stands for one. -/
  | single
  /-- Between double quotes, a backslash starts an escape. -/
  | double
  deriving DecidableEq, Repr

/-- The character of a quote. -/
def Quote.char : Quote → Char
  | single => '\''
  | double => '"'

/-- The character that a letter behind a backslash stands for. -/
def escaped? (c : Char) : Option Char :=
  match c with
  | '0' => some (Char.ofNat 0)
  | 'a' => some (Char.ofNat 7)
  | 'b' => some (Char.ofNat 8)
  | 't' | '\t' => some '\t'
  | 'n' => some '\n'
  | 'v' => some (Char.ofNat 11)
  | 'f' => some (Char.ofNat 12)
  | 'r' => some '\r'
  | 'e' => some (Char.ofNat 27)
  | ' ' | '"' | '/' | '\\' => some c
  | 'N' => some (Char.ofNat 0x85)
  | '_' => some (Char.ofNat 0xA0)
  | 'L' => some (Char.ofNat 0x2028)
  | 'P' => some (Char.ofNat 0x2029)
  | _ => none

/-- The number of hexadecimal digits of a code point behind a letter. -/
def escapeWidth? (c : Char) : Option Nat :=
  match c with
  | 'x' => some 2
  | 'u' => some 4
  | 'U' => some 8
  | _ => none

/-- The character of the escape behind a backslash, and what is behind the escape. -/
def readEscape? : List Char → Option (Char × List Char)
  | [] => none
  | c :: rest =>
    match escaped? c with
    | some d => some (d, rest)
    | none => do
      let width ← escapeWidth? c
      let digits := rest.take width
      let code ← Scalar.natOf? 16 digits
      if digits.length = width ∧ code.isValidChar then some (Char.ofNat code, rest.drop width)
      else none

namespace Quote

/-- The text up to a gap, the closing quote or a backslash that ends its line, and what is left
    there. The fuel is more than the number of characters. -/
def run? (q : Quote) : Nat → List Char → Option (List Char × List Char)
  | 0, _ => none
  | _, [] => some ([], [])
  | fuel + 1, c :: rest =>
    if isSpace c then some ([], c :: rest)
    else
      match q, c, rest with
      | single, '\'', '\'' :: rest => (q.run? fuel rest).map fun (s, r) => ('\'' :: s, r)
      | single, '\'', rest => some ([], '\'' :: rest)
      | double, '"', rest => some ([], '"' :: rest)
      | double, '\\', rest =>
        if rest.head?.any isBreak then some ([], '\\' :: rest)
        else do
          let (d, rest) ← readEscape? rest
          (q.run? fuel rest).map fun (s, r) => (d :: s, r)
      | _, c, rest => (q.run? fuel rest).map fun (s, r) => (c :: s, r)

/-- The text up to the closing quote, and the place behind that. A backslash at the end of a line
    joins it to the next one. No document may start or end inside. The fuel is more than the number
    of characters. -/
def readFrom? (q : Quote) : Nat → Cursor → Option (List Char × Cursor)
  | 0, _ => none
  | fuel + 1, c =>
    if c.atBoundary then none
    else do
      let (text, rest) ← q.run? (fuel + 1) c.rest
      let c := c.upTo rest
      match rest with
      | [] => none
      | next :: _ =>
        if next == q.char then some (text, c.advance)
        else
          let joined := next == '\\'
          let c := if joined then c.skip 2 else c
          let gap := c.rest.takeWhile isSpace
          let between := if joined then gap.filter isBreak else foldGap gap
          (q.readFrom? fuel (c.skip gap.length)).map fun (more, c) => (text ++ between ++ more, c)

/-- The scalar that starts here with a quote, and the place behind it. -/
def read? (q : Quote) (c : Cursor) : Option (List Char × Cursor) :=
  q.readFrom? (c.rest.length + 1) c.advance

end Quote

/-- A plain scalar, and what is behind it. -/
structure PlainScalar where
  text : List Char
  /-- Whether a line break follows the scalar. -/
  endsLine : Bool
  behind : Cursor

namespace PlainScalar

/-- Whether a plain scalar may start like this. -/
def starts (inFlow : Bool) : List Char → Bool
  | [] => false
  | c :: rest =>
    if c == '-' then !rest.head?.any isBlank
    else if c == '?' || c == ':' then !inFlow && !startsGap rest
    else !isSpace c && !indicators.contains c

/-- The text up to a gap or the end of the scalar. A colon with a mark of a flow collection right
    behind it is not allowed in one. -/
def run? (inFlow : Bool) : List Char → Option (List Char)
  | [] => some []
  | c :: rest =>
    if isSpace c then some []
    else if inFlow && c == ':' && rest.head?.any fun d => d == '?' || flowMarks.contains d then none
    else if (c == ':' && startsGap rest) || (inFlow && flowMarks.contains c) then some []
    else (run? inFlow rest).map (c :: ·)

/-- Whether a tab stands too far left: behind a line break and before the margin. The column is
    `none` before the first line break. -/
def hasEarlyTab (margin : Nat) : Option Nat → List Char → Bool
  | _, [] => false
  | column, c :: rest =>
    if isBreak c then hasEarlyTab margin (some 0) rest
    else (c == '\t' && column.any (· < margin)) || hasEarlyTab margin (column.map (· + 1)) rest

/-- Reads on behind some text and a gap. A scalar ends at a comment, at the boundary of a document
    and, outside of flow collections, at a line that starts before the margin. The fuel is more than
    the number of characters. -/
def readFrom? (inFlow : Bool) (margin : Nat) :
    Nat → (text gap : List Char) → Cursor → Option PlainScalar
  | 0, _, _, _ => none
  | fuel + 1, text, gap, c =>
    let done : PlainScalar := ⟨text, gap.any isBreak, c⟩
    if c.atBoundary || c.sees '#' then some done
    else do
      let run ← run? inFlow c.rest
      if run.isEmpty then some done
      else
        let text := text ++ foldGap gap ++ run
        let c := c.skip run.length
        let gap := c.rest.takeWhile isSpace
        let behind := c.skip gap.length
        if gap.isEmpty then some ⟨text, false, c⟩
        else if hasEarlyTab margin none gap then none
        else if !inFlow && behind.column < margin then some ⟨text, gap.any isBreak, behind⟩
        else readFrom? inFlow margin fuel text gap behind

/-- The plain scalar that starts here. -/
def read? (inFlow : Bool) (margin : Nat) (c : Cursor) : Option PlainScalar :=
  readFrom? inFlow margin (c.rest.length + 1) [] [] c

end PlainScalar

end DecisionTable.Yaml
