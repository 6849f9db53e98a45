import DecisionTable.Rule.Basic
import DecisionTable.Digest.Sha256

/-! # Rule sets

Rules in the order in which they are tried, and the digest of what they say.
-/

namespace DecisionTable

/-- Rules in order. Names may repeat. -/
abbrev RuleSet := List CompiledRule

namespace RuleSet

/-- The names in order. -/
def names (rules : RuleSet) : List String := rules.map (·.name)

/-- The first rule of a name. -/
def get? (name : String) (rules : RuleSet) : Option CompiledRule := rules.find? (·.name == name)

/-- The rules as JSON. -/
def toJson (rules : RuleSet) : Json := .array (rules.map CompiledRule.toJson)

/-- A text as bytes with a zero byte behind it. -/
def terminated (text : String) : List UInt8 := text.toUTF8.toList ++ [0]

/-- The bytes that stand for rules in their digest: each rule's name and sources, each with a zero
    byte behind it. -/
def encoding (rules : RuleSet) : List UInt8 :=
  rules.flatMap fun r =>
    terminated r.name ++ terminated r.condition.source ++ terminated r.consequence.source

/-- The digest of the rules' names and sources. -/
def fingerprint (rules : RuleSet) : String := Sha256.hexDigest (encoding rules)

end RuleSet

end DecisionTable
