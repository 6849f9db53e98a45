import DecisionTable.Settings.Yaml.Cursor

/-! # Tokens of configuration files

The words of a file: scalars, the names and tags of nodes, and the marks of collections. Starts
and ends of block collections are tokens of their own, although only indentation shows them.
-/

namespace DecisionTable.Yaml

/-- A tag as it is written: the handle names the start of it, and is empty if nothing is left
    out. -/
structure TagName where
  handle : List Char
  suffix : List Char
  deriving DecidableEq, Repr

/-- A word of a file. -/
inductive Token where
  /-- The version of the format, such as 1.2. -/
  | version (major minor : Nat)
  /-- What a handle stands for in tags. -/
  | tagHandle (handle lead : List Char)
  | documentStart
  | documentEnd
  | blockSequenceStart
  | blockMappingStart
  /-- The end of a block sequence or mapping. -/
  | blockEnd
  | flowSequenceStart
  | flowSequenceEnd
  | flowMappingStart
  | flowMappingEnd
  /-- The hyphen of an item. -/
  | blockEntry
  /-- The comma of a flow collection. -/
  | flowEntry
  /-- A key follows. -/
  | key
  /-- The value of a key follows. -/
  | value
  /-- The name of the node that follows. -/
  | anchor (name : List Char)
  /-- A node that was named before. -/
  | reference (name : List Char)
  | tag (name : TagName)
  | scalar (text : List Char) (plain : Bool)
  deriving DecidableEq, Repr

/-- The name behind the sign of an anchor or reference, and the place behind it. -/
def readName? (c : Cursor) : Option (List Char × Cursor) :=
  let c := c.advance
  let name := c.rest.takeWhile isWord
  let behind := c.skip name.length
  let ends := behind.atGap || behind.rest.head?.any "?:,]\x7d%@\x60".toList.contains
  if name.isEmpty || !ends then none else some (name, behind)

namespace TagName

/-- The octets of a character that is written with percent signs: the first tells how many more
    there are. -/
def escapedOctet? : List Char → Option (Nat × List Char)
  | '%' :: high :: low :: rest => do
    let hex (c : Char) : Option Nat :=
      if c.isDigit then some (c.toNat - '0'.toNat)
      else if 'a' ≤ c && c ≤ 'f' then some (c.toNat - 'a'.toNat + 10)
      else if 'A' ≤ c && c ≤ 'F' then some (c.toNat - 'A'.toNat + 10)
      else none
    some (16 * (← hex high) + (← hex low), rest)
  | _ => none

/-- The octets that follow the first of a character, each as the character of its number. -/
def moreOctets? : Nat → List Char → Option (List Char × List Char)
  | 0, text => some ([], text)
  | n + 1, text => do
    let (octet, rest) ← escapedOctet? text
    if 0x80 ≤ octet && octet < 0xC0 then
      (moreOctets? n rest).map fun (s, r) => (Char.ofNat octet :: s, r)
    else none

/-- A character that is written with percent signs, as the characters of its octets. -/
def escaped? (text : List Char) : Option (List Char × List Char) := do
  let (octet, rest) ← escapedOctet? text
  let more ←
    if octet < 0x80 then some 0
    else if 0xC0 ≤ octet && octet < 0xE0 then some 1
    else if 0xE0 ≤ octet && octet < 0xF0 then some 2
    else if 0xF0 ≤ octet && octet < 0xF8 then some 3
    else none
  (moreOctets? more rest).map fun (s, r) => (Char.ofNat octet :: s, r)

/-- Whether a character may stand in a tag. Commas and square brackets may only where nothing else
    can be meant. -/
def isTagChar (verbatim : Bool) (c : Char) : Bool :=
  isWord c || ";/?:@&=+$.!~*'()".toList.contains c || (verbatim && ",[]".toList.contains c)

/-- The characters of a tag at the front of a text, and what is behind them. The fuel is more than
    the number of characters. -/
def run? (verbatim : Bool) : Nat → List Char → Option (List Char × List Char)
  | 0, _ => none
  | _, [] => some ([], [])
  | fuel + 1, c :: rest =>
    if c == '%' then do
      let (octets, rest) ← escaped? (c :: rest)
      (run? verbatim fuel rest).map fun (s, r) => (octets ++ s, r)
    else if isTagChar verbatim c then (run? verbatim fuel rest).map fun (s, r) => (c :: s, r)
    else some ([], c :: rest)

/-- The characters of a tag that start here, and the place behind them. -/
def read? (verbatim : Bool) (c : Cursor) : Option (List Char × Cursor) := do
  let (text, rest) ← run? verbatim (c.rest.length + 1) c.rest
  some (text, c.upTo rest)

/-- The handle that starts here: an exclamation mark, and a word with another one behind it if there
    are any. -/
def handleAt (c : Cursor) : List Char :=
  let word := (c.rest.drop 1).takeWhile isWord
  '!' :: word ++ ((c.rest.drop (word.length + 1)).head?.filter (· == '!')).toList

/-- Whether a handle is a word between two exclamation marks, or two of these. -/
def isNamed (handle : List Char) : Bool := handle.length > 1 && handle.getLast? == some '!'

/-- The tag that starts here, and the place behind it. A whole tag stands between angle brackets;
    others have a handle. An exclamation mark alone is a tag without a handle. -/
def readAny? (c : Cursor) : Option (TagName × Cursor) :=
  if (c.rest.drop 1).head? == some '<' then do
    let (suffix, behind) ← read? true (c.skip 2)
    if !suffix.isEmpty && behind.sees '>' then some (⟨[], suffix⟩, behind.advance) else none
  else
    let handle := handleAt c
    let behind := c.skip handle.length
    if isNamed handle then do
      let (suffix, behind) ← read? false behind
      if suffix.isEmpty then none else some (⟨handle, suffix⟩, behind)
    else do
      let (more, behind) ← read? false behind
      match handle.drop 1 ++ more with
      | [] => some (⟨[], ['!']⟩, behind)
      | suffix => some (⟨['!'], suffix⟩, behind)

end TagName

namespace Token

/-- The number of a version that starts here, and the place behind it. It has at most nine
    digits. -/
def versionPart? (c : Cursor) : Option (Nat × Cursor) :=
  let digits := c.rest.takeWhile Char.isDigit
  if digits.isEmpty || 9 < digits.length then none
  else some (digits.foldl (fun n d => 10 * n + (d.toNat - '0'.toNat)) 0, c.skip digits.length)

/-- The directive that starts here with a percent sign, and the place behind its line. It tells the
    version of the format or what a handle stands for. -/
def directive? (c : Cursor) : Option (Token × Cursor) := do
  let c := c.advance
  let name := c.rest.takeWhile isWord
  let c := c.skip name.length
  if !c.atGap then none
  let c := c.skipWhile isBlank
  let (token, c) ← (match String.ofList name with
    | "YAML" => do
      let (major, c) ← versionPart? c
      if !c.sees '.' then none
      let (minor, c) ← versionPart? c.advance
      some (version major minor, c)
    | "TAG" => do
      let handle := TagName.handleAt c
      if !c.sees '!' || !(handle == ['!'] || TagName.isNamed handle) then none
      let c := c.skip handle.length
      if !c.rest.head?.any isBlank then none
      let (lead, c) ← TagName.read? true (c.skipWhile isBlank)
      if lead.isEmpty || !c.atGap then none
      some (tagHandle handle lead, c)
    | _ => none : Option (Token × Cursor))
  some (token, ← c.restOfLine?)

end Token

end DecisionTable.Yaml
