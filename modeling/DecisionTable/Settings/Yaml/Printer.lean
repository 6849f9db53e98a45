import DecisionTable.Settings.Scalar
import DecisionTable.Settings.Yaml.Character

/-! # Writing configuration files

Texts and entries of block mappings as YAML. A text is written plain where it reads back as
that text, as a literal block if it has lines, and otherwise between quotes: single ones, unless
it holds a character that needs an escape.
-/

namespace DecisionTable.Yaml

/-- How a text is written. -/
inductive Style where
  | plain
  | singleQuoted
  | doubleQuoted
  | literal
  deriving DecidableEq, Repr

/-- Whether a character is written as it is. -/
def isPrintable (c : Char) : Bool :=
  let n := c.toNat
  n == 0xA || (0x20 ≤ n && n ≤ 0x7E) ||
    (0xA0 ≤ n && n != 0xFEFF && n != 0xFFFE && n != 0xFFFF)

/-- Whether a text has a colon at the end of a word, or a number sign at the start of one. -/
def hasInnerMark : List Char → Bool
  | [] => false
  | ':' :: rest => startsGap rest || hasInnerMark rest
  | ' ' :: '#' :: _ => true
  | _ :: rest => hasInnerMark rest

/-- Whether the start of a text looks like the start of something else. -/
def hasLeadingMark : List Char → Bool
  | [] => false
  | '-' :: '-' :: '-' :: _ => true
  | '.' :: '.' :: '.' :: _ => true
  | c :: rest =>
    indicators.contains c || ((c == '-' || c == '?' || c == ':') && startsGap rest)

/-- Whether a text has a character of one kind right before one of another. -/
def hasPair (p q : Char → Bool) : List Char → Bool
  | c :: d :: rest => (p c && q d) || hasPair p q (d :: rest)
  | _ => false

/-- The style of a text. A space next to a line break can be hard to see, and is left to styles that
    show it. -/
def style (text : String) : Style :=
  let chars := text.toList
  let isSpace (c : Char) : Bool := c == ' '
  let endsInSpace := chars.getLast?.any isSpace
  let startsInSpace := chars.head?.any isSpace
  let spaceBreak := hasPair isSpace isBreak chars
  let breakSpace := hasPair isBreak isSpace chars
  if !chars.all isPrintable || spaceBreak then .doubleQuoted
  else if chars.contains '\n' then if endsInSpace then .doubleQuoted else .literal
  else if breakSpace then .doubleQuoted
  else
    match Scalar.resolve text with
    | .text _ =>
      if Scalar.hasIdleZero (Scalar.unsigned chars) || hasLeadingMark chars || hasInnerMark chars ||
          endsInSpace || startsInSpace || chars.any isBreak then .singleQuoted
      else .plain
    | _ => .singleQuoted

/-- A number in hexadecimal digits with upper-case letters, filled up with zeros. -/
def hex (width n : Nat) : List Char :=
  let digits := (Nat.toDigits 16 n).map Char.toUpper
  List.replicate (width - digits.length) '0' ++ digits

/-- What stands behind the backslash for a character that has a letter of its own. -/
def escapeLetter? (c : Char) : Option Char :=
  match c.toNat with
  | 0x00 => some '0'
  | 0x07 => some 'a'
  | 0x08 => some 'b'
  | 0x09 => some 't'
  | 0x0A => some 'n'
  | 0x0B => some 'v'
  | 0x0C => some 'f'
  | 0x0D => some 'r'
  | 0x1B => some 'e'
  | 0x22 => some '"'
  | 0x5C => some '\\'
  | 0x85 => some 'N'
  | 0x2028 => some 'L'
  | 0x2029 => some 'P'
  | _ => none

/-- A character between double quotes. -/
def escape (c : Char) : List Char :=
  match escapeLetter? c with
  | some letter => ['\\', letter]
  | none =>
    if isPrintable c then [c]
    else if c.toNat ≤ 0xFF then '\\' :: 'x' :: hex 2 c.toNat
    else if c.toNat ≤ 0xFFFF then '\\' :: 'u' :: hex 4 c.toNat
    else '\\' :: 'U' :: hex 8 c.toNat

/-- What a literal block says behind its bar: a digit if its indentation would not show, and what
    becomes of the line breaks at its end. -/
def literalHints (text : List Char) : List Char :=
  let indentation := if text.head?.any fun c => c == ' ' || isBreak c then ['2'] else []
  let breaks := match (text.reverse.takeWhile isBreak).length with
    | 0 => ['-']
    | 1 => if text.length = 1 then ['+'] else []
    | _ => ['+']
  indentation ++ breaks

/-- Lines in which every character behind a line break is indented, unless it is another break. -/
def indented (indent : Nat) : Bool → List Char → List Char
  | _, [] => []
  | start, c :: rest =>
    if isBreak c then c :: indented indent true rest
    else (if start then List.replicate indent ' ' else []) ++ c :: indented indent false rest

/-- A text behind a key that stands `indent` spaces deep, with the end of its line. -/
def writeText (indent : Nat) (text : String) : List Char :=
  let chars := text.toList
  let inner := indent + 2
  let endsInBreak := chars.getLast?.any isBreak
  match style text with
  | .plain => chars ++ ['\n']
  | .singleQuoted =>
    let doubled := chars.flatMap fun c => if c == '\'' then ['\'', '\''] else [c]
    let last := if endsInBreak then List.replicate inner ' ' else []
    '\'' :: indented inner false doubled ++ last ++ ['\'', '\n']
  | .doubleQuoted => '"' :: chars.flatMap escape ++ ['"', '\n']
  | .literal =>
    '|' :: literalHints chars ++ '\n' :: indented inner true chars ++
      (if endsInBreak then [] else ['\n'])

end DecisionTable.Yaml
