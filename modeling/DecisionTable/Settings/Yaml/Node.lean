import DecisionTable.Settings.Yaml.Token

/-! # Nodes of a configuration file

Scalars, sequences and mappings, as the tokens of a file arrange them. A node may have a tag and an
anchor, and a reference stands for the node of an anchor.

Anchors are numbered. A new anchor takes the number of different names used before it, so when a
name is used again, two anchors may get one number.
-/

namespace DecisionTable.Yaml

/-- What may be said about a node in front of it. -/
structure Properties where
  /-- The number of its anchor. -/
  anchor : Option Nat := none
  tag : Option (List Char) := none
  deriving DecidableEq, Repr

/-- A node of a file. -/
inductive Node where
  | scalar (properties : Properties) (text : List Char) (plain : Bool)
  | sequence (properties : Properties) (items : List Node)
  | mapping (properties : Properties) (entries : List (Node × Node))
  /-- The node that has the anchor of a number. -/
  | reference (anchor : Nat)
  deriving Inhabited

/-- What the tokens read so far leave. -/
structure Supply where
  tokens : List Token
  /-- What handles of tags stand for. -/
  handles : List (List Char × List Char) := []
  /-- The numbers of the anchors, by name. -/
  anchors : List (List Char × Nat) := []

/-- Reads from tokens, and fails if they are not well formed. -/
abbrev TokenReader := StateT Supply Option

namespace TokenReader

/-- The next token, which stays. -/
def peek : TokenReader (Option Token) := do return (← get).tokens.head?

/-- Passes over the next token. -/
def skip : TokenReader Unit := modify fun s => { s with tokens := s.tokens.tail }

/-- Whether the next token is one of some, none of which is passed over. -/
def sees (tokens : List Token) : TokenReader Bool := do return (← peek).any tokens.contains

/-- Passes over a token, if it is next. -/
def takes (token : Token) : TokenReader Bool := do
  let found ← sees [token]
  if found then skip
  return found

/-- Passes over a token that must be next. -/
def expect (token : Token) : TokenReader Unit := do
  if !(← takes token) then failure

/-- The handles that need no directive. -/
def usualHandles : List (List Char × List Char) :=
  [("!".toList, "!".toList), ("!!".toList, "tag:yaml.org,2002:".toList)]

/-- The tag that a name stands for. -/
def resolveTag (name : TagName) : TokenReader (List Char) := do
  if name.handle.isEmpty then return name.suffix
  match ((← get).handles ++ usualHandles).lookup name.handle with
  | some lead => return lead ++ name.suffix
  | none => failure

/-- Gives an anchor its number. -/
def nameAnchor (name : List Char) : TokenReader Nat := do
  let anchors := (← get).anchors
  let number := anchors.length
  let others := anchors.filter (·.1 != name)
  modify fun s => { s with anchors := (name, number) :: others }
  return number

/-- Reads an anchor, if it is next. -/
def anchor? : TokenReader (Option Nat) := do
  match ← peek with
  | some (.anchor name) => do skip; some <$> nameAnchor name
  | _ => return none

/-- Reads a tag, if it is next. -/
def tag? : TokenReader (Option (List Char)) := do
  match ← peek with
  | some (.tag name) => do skip; some <$> resolveTag name
  | _ => return none

/-- Reads what is said about a node: an anchor and a tag in either order. -/
def properties : TokenReader Properties := do
  match ← anchor? with
  | some number => return ⟨some number, ← tag?⟩
  | none =>
    let tag ← tag?
    if tag.isSome then return ⟨← anchor?, tag⟩ else return {}

/-- The node that is left out between two tokens. -/
def empty : Node := .scalar {} [] true

/-- Adds an entry to those of a mapping to come. -/
def consEntry (key value : Node) (more : TokenReader (List (Node × Node))) :
    TokenReader (List (Node × Node)) := do
  return (key, value) :: (← more)

mutual

/-- Reads a node. Block collections are read only where they are allowed, and a sequence without
    indentation only as the value of a key. The fuel is more than four times the number of
    tokens. -/
def node (block indentless : Bool) : Nat → TokenReader Node
  | 0 => failure
  | fuel + 1 => do
    match ← peek with
    | some (.reference name) =>
      skip
      match (← get).anchors.lookup name with
      | some number => return .reference number
      | none => failure
    | _ =>
      let p ← properties
      let next ← peek
      match next, block with
      | some .blockEntry, _ =>
        if indentless then .sequence p <$> indentlessItems fuel else bare p
      | some (.scalar text plain), _ =>
        skip
        if p.tag == some ['!'] then return .scalar { p with tag := none } text plain
        else return .scalar p text plain
      | some .flowSequenceStart, _ => skip; .sequence p <$> flowItems true fuel
      | some .flowMappingStart, _ => skip; .mapping p <$> flowEntries true fuel
      | some .blockSequenceStart, true => skip; .sequence p <$> blockItems fuel
      | some .blockMappingStart, true => skip; .mapping p <$> blockEntries fuel
      | _, _ => bare p
where
  /-- A node of which only its anchor or tag is there. -/
  bare (p : Properties) : TokenReader Node :=
    if p.anchor.isSome || p.tag.isSome then return .scalar p [] true else failure

/-- Reads a node, unless it is left out in front of some tokens. -/
def nodeUnless (ends : List Token) (block indentless : Bool) : Nat → TokenReader Node
  | 0 => failure
  | fuel + 1 => do
    if ← sees ends then return empty else node block indentless fuel

/-- Reads the items of a block sequence and its end. -/
def blockItems : Nat → TokenReader (List Node)
  | 0 => failure
  | fuel + 1 => do
    if ← takes .blockEntry then
      let item ← nodeUnless [.blockEntry, .blockEnd] true false fuel
      return item :: (← blockItems fuel)
    else do
      expect .blockEnd
      return []

/-- Reads the items of a sequence that stands right below its key. -/
def indentlessItems : Nat → TokenReader (List Node)
  | 0 => failure
  | fuel + 1 => do
    if ← takes .blockEntry then
      let item ← nodeUnless [.blockEntry, .key, .value, .blockEnd] true false fuel
      return item :: (← indentlessItems fuel)
    else return []

/-- Reads the entries of a block mapping and its end. -/
def blockEntries : Nat → TokenReader (List (Node × Node))
  | 0 => failure
  | fuel + 1 => do
    let ends : List Token := [.key, .value, .blockEnd]
    if ← takes .key then
      let key ← nodeUnless ends true true fuel
      let value ← if ← takes .value then nodeUnless ends true true fuel else pure empty
      consEntry key value (blockEntries fuel)
    else do
      expect .blockEnd
      return []

/-- Reads the items of a flow sequence and its end. An item with a key is a mapping of one entry; if
    its key is left out, the token behind it is passed over. -/
def flowItems (first : Bool) : Nat → TokenReader (List Node)
  | 0 => failure
  | fuel + 1 => do
    if ← takes .flowSequenceEnd then return []
    if !first then expect .flowEntry
    if ← takes .flowSequenceEnd then return []
    let item ←
      if ← takes .key then do
        let key ←
          if ← sees [.value, .flowEntry, .flowSequenceEnd] then do skip; pure empty
          else node false false fuel
        let value ←
          if ← takes .value then nodeUnless [.flowEntry, .flowSequenceEnd] false false fuel
          else pure empty
        pure (.mapping {} [(key, value)])
      else node false false fuel
    return item :: (← flowItems false fuel)

/-- Reads the entries of a flow mapping and its end. -/
def flowEntries (first : Bool) : Nat → TokenReader (List (Node × Node))
  | 0 => failure
  | fuel + 1 => do
    if ← takes .flowMappingEnd then return []
    if !first then expect .flowEntry
    if ← takes .flowMappingEnd then return []
    let ends : List Token := [.flowEntry, .flowMappingEnd]
    if ← takes .key then
      let key ← nodeUnless (.value :: ends) false false fuel
      let value ← if ← takes .value then nodeUnless ends false false fuel else pure empty
      consEntry key value (flowEntries false fuel)
    else do
      let key ← node false false fuel
      consEntry key empty (flowEntries false fuel)

end

/-- Reads the directives in front of a document. Of the format there are the versions 1.1 and 1.2,
    and nothing is told twice. -/
def directives (versioned : Bool) : Nat → TokenReader Unit
  | 0 => failure
  | fuel + 1 => do
    match ← peek with
    | some (.version major minor) =>
      if versioned || major != 1 || !(minor == 1 || minor == 2) then failure
      skip
      directives true fuel
    | some (.tagHandle handle lead) =>
      if ((← get).handles.lookup handle).isSome then failure
      modify fun s => { s with handles := (handle, lead) :: s.handles }
      skip
      directives versioned fuel
    | _ => return ()

/-- Passes over the markers behind a document. -/
def documentEnds : TokenReader Unit :=
  modify fun s => { s with tokens := s.tokens.dropWhile (· == .documentEnd) }

/-- Reads the only document of a file; there is none in an empty file. Directives need a start
    marker behind them. -/
def document? : TokenReader (Option Node) := do
  let count := (← get).tokens.length
  let fuel := 4 * count + 4
  match ← peek with
  | none => return none
  | some (.version _ _) | some (.tagHandle _ _) | some .documentStart =>
    directives false (count + 1)
    expect .documentStart
    match ← peek with
    | none | some (.version _ _) | some (.tagHandle _ _) | some .documentStart | some .documentEnd =>
      finish empty
    | some _ => finish (← node true false fuel)
  | some _ => finish (← node true false fuel)
where
  /-- Checks that no other document follows. -/
  finish (root : Node) : TokenReader (Option Node) := do
    documentEnds
    if (← peek).isSome then failure
    return some root

end TokenReader

/-- The only document of a text, if there is one. The outer option is `none` if the text is not well
    formed. -/
def Node.ofTokens? (tokens : List Token) : Option (Option Node) :=
  (TokenReader.document?.run { tokens := tokens }).map (·.1)

end DecisionTable.Yaml
