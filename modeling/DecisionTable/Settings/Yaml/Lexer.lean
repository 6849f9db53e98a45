import DecisionTable.Settings.Yaml.BlockScalar
import DecisionTable.Settings.Yaml.FlowScalar
import DecisionTable.Settings.Yaml.Token

/-! # Words of a file

Splits a file into tokens. A key is recognised only at its colon, so the lexer remembers where a
key may have started and puts the token of a key there when the colon comes. Block collections
open where a line stands deeper than the collection around it, and end where one does not.
-/

namespace DecisionTable.Yaml

/-- A place where a key may have started. -/
structure KeyCandidate where
  /-- Whether nothing but a key can stand there. -/
  required : Bool
  /-- The number of tokens before it. -/
  token : Nat
  index : Nat
  line : Nat
  column : Nat

/-- Longest distance in characters from the start of a key to its colon. -/
def maxKeyLength : Nat := 1024

/-- Whether a candidate cannot be a key any more at a place: its line is over, or it would be too
    long. -/
def KeyCandidate.isStale (k : KeyCandidate) (c : Cursor) : Bool :=
  k.line < c.line || k.index + maxKeyLength < c.index

/-- The state of the lexer. -/
structure Lexer where
  cursor : Cursor
  tokens : Array Token := #[]
  /-- The columns of the open block collections, innermost first. -/
  columns : List Nat := []
  /-- Where a key of the innermost open collection may have started. -/
  candidate : Option KeyCandidate := none
  /-- The same for the collections around each open flow collection, innermost first. -/
  outer : List (Option KeyCandidate) := []
  /-- Whether a key may start here. -/
  keyAllowed : Bool := true

namespace Lexer

/-- Whether a flow collection is open. -/
def inFlow (s : Lexer) : Bool := !s.outer.isEmpty

/-- The first column that lies inside the innermost block collection. -/
def margin (s : Lexer) : Nat := (s.columns.head?.map (· + 1)).getD 0

/-- Adds a token. -/
def emit (s : Lexer) (token : Token) : Lexer := { s with tokens := s.tokens.push token }

/-- Puts a token in front of those behind the first `n`. -/
def insert (s : Lexer) (n : Nat) (token : Token) : Lexer :=
  { s with tokens := s.tokens.take n ++ #[token] ++ s.tokens.drop n }

/-- Goes on behind a token of some characters. -/
def emitBehind (s : Lexer) (length : Nat) (token : Token) : Lexer :=
  { s with cursor := s.cursor.skip length }.emit token

/-- Gives up the candidate, unless it had to be a key. -/
def dropCandidate (s : Lexer) : Option Lexer :=
  if s.candidate.any (·.required) then none else some { s with candidate := none }

/-- Remembers that a key may start here. -/
def saveCandidate (s : Lexer) : Option Lexer :=
  if s.keyAllowed then do
    let s ← s.dropCandidate
    let c := s.cursor
    let required := !s.inFlow && s.columns.head? == some c.column
    some { s with candidate := some ⟨required, s.tokens.size, c.index, c.line, c.column⟩ }
  else some s

/-- Gives up the candidates that cannot be keys any more, unless one of them had to be. -/
def dropStale (s : Lexer) : Option Lexer :=
  let isStale (k : KeyCandidate) : Bool := k.isStale s.cursor
  if (s.candidate :: s.outer).any fun k => k.any fun k => isStale k && k.required then none
  else some { s with
    candidate := s.candidate.filter (!isStale ·)
    outer := s.outer.map (·.filter (!isStale ·)) }

/-- Opens a block collection at a column, if that lies inside the innermost one: its start is put in
    front of the tokens behind the first `n`. -/
def openBlock (s : Lexer) (column n : Nat) (start : Token) : Lexer :=
  if !s.inFlow && s.margin ≤ column then
    { s with columns := column :: s.columns }.insert n start
  else s

/-- Ends the innermost block collections while a condition holds of their columns. -/
def closeBlocks (s : Lexer) (p : Nat → Bool) : Lexer :=
  if s.inFlow then s
  else
    let closed := s.columns.takeWhile p
    { s with
      columns := s.columns.drop closed.length
      tokens := s.tokens ++ Array.replicate closed.length .blockEnd }

/-- Passes over blank space, comments and line breaks. Where a key may start outside of flow
    collections, a tab is no blank space. A new line may start a key there. The fuel is more than
    the number of characters. -/
def skipGap : Nat → Lexer → Lexer
  | 0, s => s
  | fuel + 1, s =>
    let isSkipped (c : Char) : Bool := c == ' ' || (c == '\t' && (s.inFlow || !s.keyAllowed))
    let c := s.cursor.skipWhile isSkipped
    let c := if c.sees '#' then c.skipWhile (!isBreak ·) else c
    if c.rest.head?.any isBreak then
      skipGap fuel { s with cursor := c.advance, keyAllowed := s.keyAllowed || !s.inFlow }
    else { s with cursor := c }

/-- Ends the document that is open: all block collections end, and no key may start. -/
def endDocument (s : Lexer) : Option Lexer := do
  let s ← (s.closeBlocks fun _ => true).dropCandidate
  some { s with keyAllowed := false }

/-- Takes the bracket that opens a flow collection. -/
def openFlow (s : Lexer) (start : Token) : Option Lexer := do
  let s ← s.saveCandidate
  some ({ s with outer := s.candidate :: s.outer, candidate := none, keyAllowed := true }.emitBehind
    1 start)

/-- Takes the bracket that ends a flow collection. -/
def closeFlow (s : Lexer) (finish : Token) : Option Lexer := do
  let s ← s.dropCandidate
  let s := match s.outer with
    | [] => s
    | candidate :: outer => { s with candidate := candidate, outer := outer }
  some ({ s with keyAllowed := false }.emitBehind 1 finish)

/-- Takes the mark of an item or of an explicit key, which opens a block collection if it stands
    deeper than the one around it. -/
def mark (s : Lexer) (start token : Token) : Option Lexer := do
  if !s.inFlow && !s.keyAllowed then none
  let s ← (s.openBlock s.cursor.column s.tokens.size start).dropCandidate
  some (s.emitBehind 1 token)

/-- Takes the colon behind a key. -/
def colon (s : Lexer) : Option Lexer :=
  match s.candidate with
  | some k =>
    let s := (s.insert k.token .key).openBlock k.column k.token .blockMappingStart
    some ({ s with candidate := none, keyAllowed := false }.emitBehind 1 .value)
  | none =>
    if !s.inFlow && !s.keyAllowed then none
    else
      let s := s.openBlock s.cursor.column s.tokens.size .blockMappingStart
      some ({ s with keyAllowed := !s.inFlow }.emitBehind 1 .value)

/-- Takes a part of a node that a key may start with. -/
def part (s : Lexer) (read : Cursor → Option (Token × Cursor)) : Option Lexer := do
  let s ← s.saveCandidate
  let (token, behind) ← read s.cursor
  some ({ s with cursor := behind, keyAllowed := false }.emit token)

/-- Takes a plain scalar. -/
def plain (s : Lexer) : Option Lexer := do
  let s ← s.saveCandidate
  let scalar ← PlainScalar.read? s.inFlow s.margin s.cursor
  some ({ s with cursor := scalar.behind, keyAllowed := scalar.endsLine }.emit
    (.scalar scalar.text true))

/-- Takes a block scalar. -/
def block (s : Lexer) : Option Lexer := do
  let s ← s.dropCandidate
  let (text, behind) ← BlockScalar.read? s.margin s.cursor
  some ({ s with cursor := behind, keyAllowed := true }.emit (.scalar text false))

/-- Takes a quoted scalar. -/
def quoted (s : Lexer) (q : Quote) : Option Lexer :=
  s.part fun c => (q.read? c).map fun (text, behind) => (.scalar text false, behind)

/-- Takes a tag. Blank space must follow it, or in a flow collection a comma. -/
def tag (s : Lexer) : Option Lexer :=
  s.part fun c => do
    let (name, behind) ← TagName.readAny? c
    if behind.atGap || (s.inFlow && behind.sees ',') then some (.tag name, behind) else none

/-- Takes the next token, which starts with the character `next`, with `rest` behind it. -/
def take (s : Lexer) (next : Char) (rest : List Char) : Option Lexer :=
  let inside := s.inFlow || startsGap rest
  let start (s : Lexer) : Option Lexer :=
    if PlainScalar.starts s.inFlow (next :: rest) then s.plain else none
  if s.cursor.column == 0 && next == '%' then do
    let s ← s.endDocument
    let (token, behind) ← Token.directive? s.cursor
    some ({ s with cursor := behind }.emit token)
  else if s.cursor.atMarker "---" then do
    some ((← s.endDocument).emitBehind 3 .documentStart)
  else if s.cursor.atMarker "..." then do
    some ((← s.endDocument).emitBehind 3 .documentEnd)
  else
    match next with
    | '[' => s.openFlow .flowSequenceStart
    | '{' => s.openFlow .flowMappingStart
    | ']' => s.closeFlow .flowSequenceEnd
    | '}' => s.closeFlow .flowMappingEnd
    | ',' => do some ({ (← s.dropCandidate) with keyAllowed := true }.emitBehind 1 .flowEntry)
    | '-' =>
      if startsGap rest then do
        some { (← s.mark .blockSequenceStart .blockEntry) with keyAllowed := true }
      else start s
    | '?' =>
      if inside then do
        some { (← s.mark .blockMappingStart .key) with keyAllowed := !s.inFlow }
      else start s
    | ':' => if inside then s.colon else start s
    | '*' => s.part fun c => (readName? c).map fun (name, c) => (.reference name, c)
    | '&' => s.part fun c => (readName? c).map fun (name, c) => (.anchor name, c)
    | '!' => s.tag
    | '|' | '>' => if s.inFlow then none else s.block
    | '\'' => s.quoted .single
    | '"' => s.quoted .double
    | _ => start s

/-- Takes all tokens up to the end of the text. The fuel is more than the number of characters. -/
def run : Nat → Lexer → Option (Array Token)
  | 0, _ => none
  | fuel + 1, s => do
    let s ← (s.skipGap (fuel + 1)).dropStale
    match s.cursor.rest with
    | [] => (·.tokens) <$> s.endDocument
    | next :: rest => (s.closeBlocks (s.cursor.column < ·)).take next rest >>= run fuel

end Lexer

/-- The tokens of a text; `none` if it is not well formed. -/
def Token.all? (text : List Char) : Option (List Token) :=
  (Lexer.run (text.length + 1) { cursor := ⟨text, 0, 0, 0⟩ }).map Array.toList

end DecisionTable.Yaml
