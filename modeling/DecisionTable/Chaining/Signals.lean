import DecisionTable.Rule.Basic

/-! # Signals of rules

A rule that is written by hand works on a session: it reads and changes the fact, and signals
whether its gate is open and how the run goes on. It may signal as often as it likes. For each
of the two questions the last signal counts, so such a rule is a `Rule` to an engine.
-/

namespace DecisionTable

/-- A signal of a rule to the engine. -/
inductive Signal where
  /-- Whether the gate is open. -/
  | gate (isOpen : Bool)
  /-- How the run goes on. -/
  | flow (flow : Flow)
  deriving DecidableEq, Repr

/-- What an engine and a rule share. -/
structure RuleSession where
  fact : Fact
  gate : Option Bool
  flow : Flow

/-- The session after a signal. -/
def RuleSession.receive (s : RuleSession) : Signal → RuleSession
  | .gate isOpen => { s with gate := some isOpen }
  | .flow flow => { s with flow := flow }

/-- What the last signal about the gate says. -/
def lastGate? (signals : List Signal) : Option Bool :=
  signals.reverse.findSome? fun
    | .gate isOpen => some isOpen
    | .flow _ => none

/-- What the last signal about the run says. -/
def lastFlow? (signals : List Signal) : Option Flow :=
  signals.reverse.findSome? fun
    | .gate _ => none
    | .flow flow => some flow

/-- A rule that is written by hand. Each part reports its signals in order. -/
structure SignallingRule where
  name : String
  condition : Fact → Effect (List Signal)
  consequence : Fact → Effect (List Signal)

namespace SignallingRule

/-- The rule as an engine runs it. A consequence without a signal about the run lets it go on. -/
def toRule (r : SignallingRule) : Rule where
  name := r.name
  condition fact := ⟨(r.condition fact).fact, (r.condition fact).report.map lastGate?⟩
  consequence fact :=
    ⟨(r.consequence fact).fact,
      (r.consequence fact).report.map fun signals => (lastFlow? signals).getD .next⟩

variable {r : SignallingRule} {fact after : Fact} {report : Except EvalError (List Signal)}

theorem toRule_condition (h : r.condition fact = ⟨after, report⟩) :
    r.toRule.condition fact = ⟨after, report.map lastGate?⟩ := by
  simp only [toRule, h]

theorem toRule_consequence (h : r.consequence fact = ⟨after, report⟩) :
    r.toRule.consequence fact =
      ⟨after, report.map fun signals => (lastFlow? signals).getD .next⟩ := by
  simp only [toRule, h]

end SignallingRule

end DecisionTable
