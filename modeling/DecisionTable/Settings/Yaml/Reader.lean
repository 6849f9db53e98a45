import DecisionTable.Settings.Scalar
import DecisionTable.Settings.Yaml.Lexer
import DecisionTable.Settings.Yaml.Node

/-! # Reading configuration files

What the nodes of a file stand for. A file is one mapping, or empty. References are followed, but
only so often, and collections nest only so deep, which also refuses a collection that refers to
itself.
-/

namespace DecisionTable.Yaml

namespace Node

mutual

/-- The number of steps in which a node is read: a scalar or reference takes one, and a collection
    one for each end. -/
def steps : Node → Nat
  | scalar _ _ _ | reference _ => 1
  | sequence _ items => 2 + itemSteps items
  | mapping _ entries => 2 + entrySteps entries

/-- The steps of items. -/
def itemSteps : List Node → Nat
  | [] => 0
  | item :: rest => steps item + itemSteps rest

/-- The steps of entries. -/
def entrySteps : List (Node × Node) → Nat
  | [] => 0
  | (key, value) :: rest => steps key + steps value + entrySteps rest

end

/-- What is said about a node. -/
def properties : Node → Properties
  | scalar p _ _ | sequence p _ | mapping p _ => p
  | reference _ => {}

mutual

/-- The nodes with an anchor in a node, in order. -/
def anchored (node : Node) : List (Nat × Node) :=
  (node.properties.anchor.map (·, node)).toList ++
    match node with
    | scalar _ _ _ | reference _ => []
    | sequence _ items => anchoredItems items
    | mapping _ entries => anchoredEntries entries

/-- The nodes with an anchor in items. -/
def anchoredItems : List Node → List (Nat × Node)
  | [] => []
  | item :: rest => anchored item ++ anchoredItems rest

/-- The nodes with an anchor in entries. -/
def anchoredEntries : List (Node × Node) → List (Nat × Node)
  | [] => []
  | (key, value) :: rest => anchored key ++ anchored value ++ anchoredEntries rest

end

end Node

/-- How deep collections may nest. -/
def maxDepth : Nat := 128

/-- How often references may be followed for each step in which a file is read. -/
def referencesPerStep : Nat := 100

/-- Follows references of a file: counts down how often that may still happen. -/
abbrev Following := StateT Nat Option

/-- What handles of tags stand for that name a kind of scalars. -/
def kindStart : String := "tag:yaml.org,2002:"

/-- The kind of scalars that a tag asks for. -/
def kindOf? (tag : String) : Option Scalar.Kind :=
  if tag == kindStart ++ "null" then some .null
  else if tag == kindStart ++ "bool" then some .bool
  else if tag == kindStart ++ "int" then some .integer
  else if tag == kindStart ++ "float" then some .fraction
  else none

/-- Whether a tag is one of the file's own, for which settings have no use. -/
def Properties.isForeign (p : Properties) : Bool := p.tag.any (·.head? == some '!')

/-- What a scalar stands for. A plain one without a tag shows it by its text. -/
def scalarSetting? (p : Properties) (text : String) (plain : Bool) : Option Setting :=
  match p.tag with
  | none => some (if plain then Scalar.resolve text else .text text)
  | some tag =>
    if p.isForeign then none
    else match kindOf? (String.ofList tag) with
      | some kind => Scalar.ofKind? kind text
      | none => some (.text text)

namespace Node

/-- The node itself, or the one it refers to. Of several with one number the last is meant. -/
def follow (anchors : List (Nat × Node)) : Node → Following Node
  | reference number => do
    match ← get with
    | 0 => failure
    | left + 1 =>
      set left
      match anchors.reverse.lookup number with
      | some node => return node
      | none => failure
  | node => return node

/-- The name that a scalar is as the key of an entry. -/
def key (anchors : List (Nat × Node)) (node : Node) : Following String := do
  match ← node.follow anchors with
  | scalar _ text _ => return String.ofList text
  | _ => failure

/-- What a node stands for, with collections nested at most `depth` deep. -/
def setting (anchors : List (Nat × Node)) : (depth : Nat) → Node → Following Setting
  | depth, node => do
    let node ← node.follow anchors
    match node, depth with
    | scalar p text plain, _ => (scalarSetting? p (String.ofList text) plain : Option Setting)
    | sequence p items, depth + 1 =>
      if p.isForeign then failure
      return .list (← items.mapM (setting anchors depth))
    | mapping p entries, depth + 1 =>
      if p.isForeign then failure
      return .ofEntries (← entries.mapM fun (k, v) => do
        return (← k.key anchors, ← setting anchors depth v))
    | _, _ => failure

/-- The entries of the mapping that a whole file is. Its tag does not matter, and a scalar that is
    left out is a mapping without entries. -/
def settings? (node : Node) : Option (List (String × Setting)) :=
  match node with
  | mapping p entries => do
    let root := mapping { p with tag := none } entries
    let (value, _) ← (root.setting node.anchored maxDepth).run (referencesPerStep * node.steps)
    match value with
    | .map entries => some entries
    | _ => none
  | scalar _ [] true => some []
  | _ => none

end Node

/-- Reads a file as the entries of one mapping. A file without content has none, and the result is
    `none` if the file is not well formed or holds something else. -/
def read? (text : String) : Option (List (String × Setting)) := do
  let chars ← legible? text.toList
  let tokens ← Token.all? chars
  match ← Node.ofTokens? tokens with
  | some node => node.settings?
  | none => some []

end DecisionTable.Yaml
