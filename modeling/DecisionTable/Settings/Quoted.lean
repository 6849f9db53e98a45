import DecisionTable.Settings.Scalar

/-! # Quoted values of environment variables

Text between double quotes, in which a backslash starts an escape. A text with a control
character in it is no quoted text.
-/

namespace DecisionTable.Quoted

/-- Whether a character may stand between the quotes as it is. -/
def isAllowed (c : Char) : Bool := c == '\t' || (0x20 ≤ c.toNat && c.toNat != 0x7F)

/-- The character that a letter behind a backslash stands for. -/
def escaped? (c : Char) : Option Char :=
  match c with
  | 'b' => some (Char.ofNat 8)
  | 't' => some '\t'
  | 'n' => some '\n'
  | 'f' => some (Char.ofNat 12)
  | 'r' => some '\r'
  | '"' | '\\' => some c
  | _ => none

/-- The number of hexadecimal digits of a code point behind a letter. -/
def escapeWidth? (c : Char) : Option Nat :=
  match c with
  | 'u' => some 4
  | 'U' => some 8
  | _ => none

/-- The characters up to the closing quote, and what is behind that. The fuel is more than the
    number of characters. -/
def readFrom? : Nat → List Char → Option (List Char × List Char)
  | 0, _ => none
  | _ + 1, [] => none
  | _ + 1, '"' :: rest => some ([], rest)
  | fuel + 1, '\\' :: c :: rest =>
    match escaped? c with
    | some d => (readFrom? fuel rest).map fun (s, r) => (d :: s, r)
    | none => do
      let width ← escapeWidth? c
      let digits := rest.take width
      let code ← Scalar.natOf? 16 digits
      if digits.length = width ∧ code.isValidChar then
        (readFrom? fuel (rest.drop width)).map fun (s, r) => (Char.ofNat code :: s, r)
      else none
  | fuel + 1, c :: rest =>
    if isAllowed c then (readFrom? fuel rest).map fun (s, r) => (c :: s, r) else none

/-- The characters at the front of a text that fit in a number of bytes. -/
def takeBytes : Nat → List Char → List Char
  | _, [] => []
  | bytes, c :: rest =>
    if c.utf8Size ≤ bytes then c :: takeBytes (bytes - c.utf8Size) rest else []

/-- The characters behind a double quote, up to the closing one, and what is behind that. Text
    before the first escape keeps only as many bytes as it has characters. -/
def double? (text : List Char) : Option (List Char × List Char) := do
  let isBare (c : Char) : Bool := c != '"' && c != '\\'
  let lead := text.takeWhile isBare
  let (others, rest) ← readFrom? (text.length + 1) (text.dropWhile isBare)
  if !lead.all isAllowed then none
  else if (text.dropWhile isBare).head? == some '\\' then
    some (takeBytes lead.length lead ++ others, rest)
  else some (lead ++ others, rest)

end DecisionTable.Quoted
