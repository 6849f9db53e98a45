import DecisionTable.Formula.Evaluation
import DecisionTable.Formula.Parser

/-! # Rules

A rule is what an engine can run: a condition that may open the rule's gate, and a
consequence that changes the fact and says how the run goes on. A compiled rule is one built
from formulas. Its condition opens the gate when all terms hold, and its consequence ends the
run.
-/

namespace DecisionTable

/-- How a run goes on behind a consequence. -/
inductive Flow where
  | next
  | stop
  | restart
  deriving DecidableEq, Repr

/-- What a part of a rule does: the fact as it leaves it, even when it fails, and its report. -/
structure Effect (α : Type) where
  fact : Fact
  report : Except EvalError α

/-- A rule. The condition reports whether the gate is open, or nothing, which leaves it shut. -/
structure Rule where
  name : String
  condition : Fact → Effect (Option Bool)
  consequence : Fact → Effect Flow

/-- A fragment that is no formula, with its place among the fragments. -/
structure FragmentError where
  index : Nat
  cause : ParseError
  deriving DecidableEq

/-- The text of a fragment error. -/
def FragmentError.message (e : FragmentError) : String := s!"fragment {e.index}: {e.cause.message}"

/-- Parses fragments in order up to the first that fails; `index` is the place of the first. -/
def parseFragments {α : Type} (parse : String → Except ParseError α) (index : Nat) :
    List String → Except FragmentError (List α)
  | [] => .ok []
  | fragment :: rest =>
    match parse fragment with
    | .error cause => .error ⟨index, cause⟩
    | .ok parsed => (parseFragments parse (index + 1) rest).map (parsed :: ·)

/-- A conjunction of terms. -/
structure Condition where
  /-- The fragments as one text. -/
  source : String
  terms : List Expression
  deriving DecidableEq

namespace Condition

/-- Parses each fragment as one term. -/
def parse (fragments : List String) : Except FragmentError Condition :=
  (parseFragments Expression.parse 0 fragments).map fun terms =>
    ⟨String.intercalate " && " fragments, terms⟩

/-- Whether all of some terms hold. Terms behind the first that does not are not evaluated. -/
def allHold (fact : Fact) : List Expression → Except EvalError Bool
  | [] => .ok true
  | term :: rest =>
    match term.holds fact with
    | .error e => .error e
    | .ok false => .ok false
    | .ok true => allHold fact rest

/-- Whether the condition holds in a fact. -/
def holds (c : Condition) (fact : Fact) : Except EvalError Bool := allHold fact c.terms

end Condition

/-- A sequence of statements. -/
structure Consequence where
  /-- The fragments as lines of one text. -/
  source : String
  statements : List Statement
  deriving DecidableEq

namespace Consequence

/-- Parses the statements of each fragment, in order. -/
def parse (fragments : List String) : Except FragmentError Consequence :=
  (parseFragments Statement.parseAll 0 fragments).map fun parts =>
    ⟨String.intercalate "\n" fragments, parts.flatten⟩

/-- Runs statements up to the first that fails; the effect of those before it stays. -/
def runAll (fact : Fact) : List Statement → Effect Unit
  | [] => ⟨fact, .ok ()⟩
  | s :: rest =>
    match s.run fact with
    | .error e => ⟨fact, .error e⟩
    | .ok fact => runAll fact rest

/-- Runs the consequence on a fact. -/
def apply (c : Consequence) (fact : Fact) : Effect Unit := runAll fact c.statements

end Consequence

/-- A rule built from formulas. -/
structure CompiledRule where
  name : String
  condition : Condition
  consequence : Consequence
  deriving DecidableEq

namespace CompiledRule

/-- Parses a rule, its condition first. -/
def parse (name : String) (conditions consequences : List String) :
    Except FragmentError CompiledRule := do
  let condition ← Condition.parse conditions
  let consequence ← Consequence.parse consequences
  return ⟨name, condition, consequence⟩

/-- The rule as an engine runs it: it reports its condition, and stops the run when its
    consequence succeeds. -/
def toRule (r : CompiledRule) : Rule where
  name := r.name
  condition fact := ⟨fact, (r.condition.holds fact).map some⟩
  consequence fact :=
    let effect := r.consequence.apply fact
    ⟨effect.fact, effect.report.map fun _ => .stop⟩

/-- A rule as JSON: its name and both sources. -/
def toJson (r : CompiledRule) : Json :=
  .object [("name", .string r.name), ("condition", .string r.condition.source),
    ("consequence", .string r.consequence.source)]

end CompiledRule

end DecisionTable
