import DecisionTable.Json.Basic
import DecisionTable.Decimal.Basic

/-! # Reading JSON

The reader is a machine that takes one character at a time: `ReaderState.step` says what a
character does in a state, and `Json.read` folds it over the text. The open containers are a
stack of at most 127 frames. A fault is placed one byte behind the start of the character that
shows it, so inside a character of several bytes.
-/

namespace DecisionTable

/-- Why a text is not a JSON document. -/
inductive JsonFault where
  | endInList
  | endInObject
  | endInString
  | endInValue
  | expectedColon
  | expectedListCommaOrEnd
  | expectedObjectCommaOrEnd
  | expectedWord
  | expectedValue
  | invalidEscape
  | invalidNumber
  | numberOutOfRange
  | loneSurrogate
  | unfinishedSurrogatePair
  | controlCharacter
  | keyNotString
  | trailingComma
  | trailingCharacters
  | tooDeep
  deriving DecidableEq, Repr

/-- What a fault is called. -/
def JsonFault.message : JsonFault → String
  | endInList => "EOF while parsing a list"
  | endInObject => "EOF while parsing an object"
  | endInString => "EOF while parsing a string"
  | endInValue => "EOF while parsing a value"
  | expectedColon => "expected \x60:\x60"
  | expectedListCommaOrEnd => "expected \x60,\x60 or \x60]\x60"
  | expectedObjectCommaOrEnd => "expected \x60,\x60 or \x60\x7d\x60"
  | expectedWord => "expected ident"
  | expectedValue => "expected value"
  | invalidEscape => "invalid escape"
  | invalidNumber => "invalid number"
  | numberOutOfRange => "number out of range"
  | loneSurrogate => "lone leading surrogate in hex escape"
  | unfinishedSurrogatePair => "unexpected end of hex escape"
  | controlCharacter => "control character (\\u0000-\\u001F) found while parsing a string"
  | keyNotString => "key must be a string"
  | trailingComma => "trailing comma"
  | trailingCharacters => "trailing characters"
  | tooDeep => "recursion limit exceeded"

/-- A place in a text: the line from one, and the bytes before the place on that line. -/
structure TextPosition where
  line : Nat
  column : Nat
  deriving DecidableEq, Repr

/-- The place some bytes behind the start of a character, and at most behind the character. -/
def TextPosition.into (p : TextPosition) (c : Char) (bytes : Nat) : TextPosition :=
  if bytes = 0 then p else if c = '\n' then ⟨p.line + 1, 0⟩ else ⟨p.line, p.column + bytes⟩

/-- The place behind a character. -/
def TextPosition.advance (p : TextPosition) (c : Char) : TextPosition := p.into c c.utf8Size

/-- A fault and its place. -/
structure JsonError where
  fault : JsonFault
  position : TextPosition
  deriving DecidableEq, Repr

/-- The text of an error. -/
def JsonError.message (e : JsonError) : String :=
  s!"{e.fault.message} at line {e.position.line} column {e.position.column}"

/-- A container whose end has not been read: its content so far, for an object with the name
    of the member under way. -/
inductive Frame where
  | array (reversed : List Json)
  | object (members : Members) (key : String)

/-- Deepest nesting of containers. -/
def maxNesting : Nat := 127

/-- Which part of a number is under way. -/
inductive NumeralPart where
  /-- Behind the minus sign. -/
  | sign
  /-- Behind a first digit zero. -/
  | zero
  | whole
  /-- Behind the point. -/
  | point
  | fraction
  /-- Behind the `e`. -/
  | mark
  /-- Behind the exponent's sign. -/
  | exponentSign
  | exponent
  deriving DecidableEq

/-- A number under way. -/
structure Numeral where
  part : NumeralPart
  negative : Bool
  digits : Nat
  places : Nat
  exponentNegative : Bool
  exponentDigits : Nat

/-- The state of a string under way. -/
inductive StringPart where
  | plain
  /-- Behind a backslash. -/
  | escape
  /-- Behind backslash and `u`: the first half of a surrogate pair, if there is one, the value of
      the digits so far or `none` after a character that is no digit, and the bytes to come. -/
  | hex (lead : Option Nat) (value : Option Nat) (remaining : Nat)
  /-- Behind the first half of a surrogate pair. -/
  | pairBackslash (lead : Nat)
  /-- Behind the backslash of a pair's second half. -/
  | pairLetter (lead : Nat)

/-- The bytes of a character that are read when it shows a fault of a string. The digits of an escape
    are read together. -/
def StringPart.faultBytes : StringPart → Nat
  | .hex _ _ remaining => remaining
  | _ => 1

/-- What the next character belongs to. -/
inductive ReaderMode where
  /-- A value must follow. -/
  | value
  /-- Behind an opening bracket. -/
  | firstItem
  /-- Behind a comma in an array. -/
  | nextItem
  /-- Behind an item. -/
  | afterItem
  /-- Behind an opening brace. -/
  | firstKey
  /-- Behind a comma in an object. -/
  | nextKey
  /-- Behind the name of a member. -/
  | colon
  /-- Behind a member. -/
  | afterMember
  /-- Behind the whole value. -/
  | done (value : Json)
  /-- Inside `null`, `true` or `false`. -/
  | word (rest : List Char) (value : Json)
  /-- Inside a string, which is the name of a member or a value. -/
  | string (isKey : Bool) (reversed : List Char) (part : StringPart)
  | numeral (n : Numeral)

/-- The state of the reader. -/
structure ReaderState where
  frames : List Frame
  mode : ReaderMode

namespace Numeral

/-- A fresh numeral behind its minus sign or first digit. -/
def start (part : NumeralPart) (negative : Bool) (digit : Nat) : Numeral :=
  ⟨part, negative, digit, 0, false, 0⟩

/-- Whether a number may end here. -/
def complete (n : Numeral) : Bool :=
  match n.part with
  | .zero | .whole | .fraction | .exponent => true
  | _ => false

/-- The number read: a whole number without fraction and exponent that fits 64 bits stays one,
    but `-0` and all others become doubles. A double must be finite. -/
def finish (n : Numeral) : Option Number :=
  let double : Option Number :=
    let exponent : Int := if n.exponentNegative then -n.exponentDigits else n.exponentDigits
    match (Decimal.mk n.digits (exponent - n.places)).nearest n.negative with
    | .finite x => some (.double x)
    | _ => none
  if n.part = .zero || n.part = .whole then
    let value : Int := if n.negative then -n.digits else n.digits
    if h : (-9223372036854775808 ≤ value ∧ value < 18446744073709551616) ∧
        ¬(n.negative = true ∧ n.digits = 0) then
      some (.integer value h.1)
    else double
  else double

/-- Largest exponent that is read digit by digit, 2³¹ - 1. -/
def maxExponent : Nat := 2147483647

/-- Takes one more character; `none` if the number ends before it. -/
def step (n : Numeral) (c : Char) : Except JsonFault (Option Numeral) :=
  let digit := c.toNat - '0'.toNat
  let toExponent : Except JsonFault (Option Numeral) :=
    .ok (some { n with part := .exponent, exponentDigits := digit })
  let tail : Except JsonFault (Option Numeral) :=
    if c = '.' then
      .ok (if n.part = .fraction then none else some { n with part := .point })
    else if c = 'e' || c = 'E' then .ok (some { n with part := .mark })
    else .ok none
  let add (part : NumeralPart) (place : Nat) : Except JsonFault (Option Numeral) :=
    .ok (some { n with part := part, digits := 10 * n.digits + digit, places := n.places + place })
  match n.part with
  | .sign =>
    if c = '0' then .ok (some { n with part := .zero })
    else if c.isDigit then add .whole 0
    else .error .invalidNumber
  | .zero => if c.isDigit then .error .invalidNumber else tail
  | .whole => if c.isDigit then add .whole 0 else tail
  | .point => if c.isDigit then add .fraction 1 else .error .invalidNumber
  | .fraction => if c.isDigit then add .fraction 1 else tail
  | .mark =>
    if c = '+' || c = '-' then
      .ok (some { n with part := .exponentSign, exponentNegative := c = '-' })
    else if c.isDigit then toExponent
    else .error .invalidNumber
  | .exponentSign => if c.isDigit then toExponent else .error .invalidNumber
  | .exponent =>
    if c.isDigit then
      let exponent := 10 * n.exponentDigits + digit
      if maxExponent < exponent && !n.exponentNegative && n.digits != 0 then
        .error .numberOutOfRange
      else
        .ok (some { n with exponentDigits := exponent })
    else .ok none

end Numeral

namespace ReaderState

/-- Blank space between the parts of a document. -/
def isBlank (c : Char) : Bool := c = ' ' || c = '\n' || c = '\t' || c = '\r'

/-- Puts a finished value into the innermost open container. -/
def complete (frames : List Frame) (value : Json) : ReaderState :=
  match frames with
  | [] => ⟨[], .done value⟩
  | .array reversed :: rest => ⟨.array (value :: reversed) :: rest, .afterItem⟩
  | .object members key :: rest => ⟨.object (members.insert key value) key :: rest, .afterMember⟩

/-- Closes the innermost array. -/
def closeArray (frames : List Frame) : ReaderState :=
  match frames with
  | .array reversed :: rest => complete rest (.array reversed.reverse)
  | frames => complete frames (.array [])

/-- Closes the innermost object. -/
def closeObject (frames : List Frame) : ReaderState :=
  match frames with
  | .object members _ :: rest => complete rest (.object members)
  | frames => complete frames (.object [])

/-- Opens a container, unless it would be nested too deep. -/
def openFrame (frames : List Frame) (frame : Frame) (mode : ReaderMode) :
    Except JsonFault ReaderState :=
  if maxNesting ≤ frames.length then .error .tooDeep else .ok ⟨frame :: frames, mode⟩

/-- Starts a value at its first character. -/
def startValue (frames : List Frame) (c : Char) : Except JsonFault ReaderState :=
  match c with
  | 'n' => .ok ⟨frames, .word "ull".toList .null⟩
  | 't' => .ok ⟨frames, .word "rue".toList (.bool true)⟩
  | 'f' => .ok ⟨frames, .word "alse".toList (.bool false)⟩
  | '-' => .ok ⟨frames, .numeral (.start .sign true 0)⟩
  | '"' => .ok ⟨frames, .string false [] .plain⟩
  | '[' => openFrame frames (.array []) .firstItem
  | '{' => openFrame frames (.object [] "") .firstKey
  | '0' => .ok ⟨frames, .numeral (.start .zero false 0)⟩
  | c =>
    if c.isDigit then .ok ⟨frames, .numeral (.start .whole false (c.toNat - '0'.toNat))⟩
    else .error .expectedValue

/-- Ends a string: it is a value, or names the next member of the innermost object. -/
def endString (frames : List Frame) (isKey : Bool) (reversed : List Char) : ReaderState :=
  let text := String.ofList reversed.reverse
  match isKey, frames with
  | true, .object members _ :: rest => ⟨.object members text :: rest, .colon⟩
  | _, frames => complete frames (.string text)

/-- The character that a one-letter escape stands for. -/
def escaped? (c : Char) : Option Char :=
  match c with
  | '"' | '\\' | '/' => some c
  | 'b' => some (Char.ofNat 8)
  | 'f' => some (Char.ofNat 12)
  | 'n' => some '\n'
  | 'r' => some '\r'
  | 't' => some '\t'
  | _ => none

/-- The value of a hexadecimal digit. -/
def hexValue? (c : Char) : Option Nat :=
  if c.isDigit then some (c.toNat - '0'.toNat)
  else if 'a' ≤ c && c ≤ 'f' then some (c.toNat - 'a'.toNat + 10)
  else if 'A' ≤ c && c ≤ 'F' then some (c.toNat - 'A'.toNat + 10)
  else none

/-- Ends the digits of an escape: a character, or one half of a surrogate pair. -/
def endHex (reversed : List Char) (lead : Option Nat) (value : Nat) :
    Except JsonFault (List Char × StringPart) :=
  let isLow := 0xDC00 ≤ value && value ≤ 0xDFFF
  match lead with
  | some high =>
    if isLow then
      .ok (Char.ofNat (0x10000 + (high - 0xD800) * 0x400 + (value - 0xDC00)) :: reversed, .plain)
    else .error .loneSurrogate
  | none =>
    if isLow then .error .loneSurrogate
    else if 0xD800 ≤ value && value ≤ 0xDBFF then .ok (reversed, .pairBackslash value)
    else .ok (Char.ofNat value :: reversed, .plain)

/-- Takes one more character of a string; `none` if it is the closing quote. -/
def stepString (reversed : List Char) (part : StringPart) (c : Char) :
    Except JsonFault (Option (List Char × StringPart)) :=
  match part with
  | .plain =>
    if c = '"' then .ok none
    else if c = '\\' then .ok (some (reversed, .escape))
    else if c.toNat < 32 then .error .controlCharacter
    else .ok (some (c :: reversed, .plain))
  | .escape =>
    if c = 'u' then .ok (some (reversed, .hex none (some 0) 4))
    else match escaped? c with
      | some d => .ok (some (d :: reversed, .plain))
      | none => .error .invalidEscape
  | .hex lead value remaining =>
    let value := do return 16 * (← value) + (← hexValue? c)
    if c.utf8Size < remaining then .ok (some (reversed, .hex lead value (remaining - c.utf8Size)))
    else match value with
      | some n => (endHex reversed lead n).map some
      | none => .error .invalidEscape
  | .pairBackslash lead =>
    if c = '\\' then .ok (some (reversed, .pairLetter lead)) else .error .unfinishedSurrogatePair
  | .pairLetter lead =>
    if c = 'u' then .ok (some (reversed, .hex (some lead) (some 0) 4))
    else .error .unfinishedSurrogatePair

/-- What a character does between the parts of a document. -/
def stepBetween (s : ReaderState) (c : Char) : Except JsonFault ReaderState :=
  if isBlank c then .ok s
  else match s.mode with
    | .firstItem => if c = ']' then .ok (closeArray s.frames) else startValue s.frames c
    | .nextItem => if c = ']' then .error .trailingComma else startValue s.frames c
    | .afterItem =>
      if c = ']' then .ok (closeArray s.frames)
      else if c = ',' then .ok ⟨s.frames, .nextItem⟩
      else .error .expectedListCommaOrEnd
    | .firstKey =>
      if c = '}' then .ok (closeObject s.frames)
      else if c = '"' then .ok ⟨s.frames, .string true [] .plain⟩
      else .error .keyNotString
    | .nextKey =>
      if c = '}' then .error .trailingComma
      else if c = '"' then .ok ⟨s.frames, .string true [] .plain⟩
      else .error .keyNotString
    | .colon => if c = ':' then .ok ⟨s.frames, .value⟩ else .error .expectedColon
    | .afterMember =>
      if c = '}' then .ok (closeObject s.frames)
      else if c = ',' then .ok ⟨s.frames, .nextKey⟩
      else .error .expectedObjectCommaOrEnd
    | .done _ => .error .trailingCharacters
    | _ => startValue s.frames c

/-- What a character does. A fault is told with the bytes of the character that are read when it
    shows: none if the fault stands before the character. -/
def step (s : ReaderState) (c : Char) : Except (JsonFault × Nat) ReaderState :=
  let within {α : Type} (bytes : Nat) (r : Except JsonFault α) : Except (JsonFault × Nat) α :=
    r.mapError (·, bytes)
  match s.mode with
  | .word rest value =>
    match rest with
    | [last] => if c = last then .ok (complete s.frames value) else within 1 (.error .expectedWord)
    | next :: rest =>
      if c = next then .ok ⟨s.frames, .word rest value⟩ else within 1 (.error .expectedWord)
    | [] => within 1 (stepBetween (complete s.frames value) c)
  | .string isKey reversed part =>
    match within part.faultBytes (stepString reversed part c) with
    | .ok (some (reversed, part)) => .ok ⟨s.frames, .string isKey reversed part⟩
    | .ok none => .ok (endString s.frames isKey reversed)
    | .error e => .error e
  | .numeral n =>
    match within 1 (n.step c) with
    | .ok (some n) => .ok ⟨s.frames, .numeral n⟩
    | .ok none =>
      match n.finish with
      | some number => within 1 (stepBetween (complete s.frames (.number number)) c)
      | none => .error (.numberOutOfRange, 0)
    | .error e => .error e
  | _ => within 1 (stepBetween s c)

/-- The value read when the text ends. -/
def finish (s : ReaderState) : Except JsonFault Json :=
  match s.mode with
  | .done value => .ok value
  | .value | .nextItem | .nextKey | .word _ _ => .error .endInValue
  | .firstItem | .afterItem => .error .endInList
  | .firstKey | .colon | .afterMember => .error .endInObject
  | .string _ _ _ => .error .endInString
  | .numeral n =>
    if n.complete then
      match n.finish with
      | none => .error .numberOutOfRange
      | some number =>
        match s.frames with
        | [] => .ok (.number number)
        | .array _ :: _ => .error .endInList
        | .object _ _ :: _ => .error .endInObject
    else .error .endInValue

/-- Reads the rest of a text from a state and a place. -/
def run (s : ReaderState) (p : TextPosition) : List Char → Except JsonError Json
  | [] => s.finish.mapError (⟨·, p⟩)
  | c :: rest =>
    match s.step c with
    | .ok s => run s (p.advance c) rest
    | .error (fault, bytes) => .error ⟨fault, p.into c bytes⟩

end ReaderState

/-- Reads a text as one JSON document. -/
def Json.read (text : String) : Except JsonError Json :=
  ReaderState.run ⟨[], .value⟩ ⟨1, 0⟩ text.toList

end DecisionTable
