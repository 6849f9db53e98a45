import DecisionTable.Chaining.Settings
import DecisionTable.Rule.Basic

/-! # Forward chaining

A run goes through the rules in order, in passes. A pass ends at the last rule, at a rule
that stops the run, or at a rule that asks to start over; the last kind is followed by another
pass from the first rule, on the fact as it then is. The number of passes is bounded by the
settings, so a run is a recursion on the restarts that are left.
-/

namespace DecisionTable

/-- Why a run has no result. -/
inductive ChainError where
  /-- A condition or a consequence failed. -/
  | eval (rule : String) (cause : EvalError)
  /-- One restart more than allowed was asked for. -/
  | restartLimit (limit : UInt32)
  /-- One restart more was asked for than a counter of 32 bits can hold. -/
  | restartOverflow
  deriving DecidableEq, Repr

/-- The text of an error. -/
def ChainError.message : ChainError → String
  | eval rule cause => s!"rule '{rule}' failed: {cause.message}"
  | restartLimit limit => s!"execution restarted more than {limit} times"
  | restartOverflow => "attempt to add with overflow"

/-- A finished run: the last fact, and the names of the matched rules in order. -/
structure Execution where
  fact : Fact
  matchPath : List String

/-- A finished pass: the last fact, the names of its matched rules, and whether to start over. -/
structure Pass where
  fact : Fact
  matched : List String
  again : Bool

namespace Chain

/-- Whether a matched rule asks to start over: it says so, or it goes on but has changed the fact
    and changes count. -/
def wantsRestart (ignoreFactChanges : Bool) (before after : Fact) : Flow → Bool
  | .stop => false
  | .restart => true
  | .next => !ignoreFactChanges && !before.equivalent after

/-- Runs the rules in order, once. -/
def pass (ignoreFactChanges : Bool) (fact : Fact) : List Rule → Except ChainError Pass
  | [] => .ok ⟨fact, [], false⟩
  | rule :: rest =>
    let tried := rule.condition fact
    match tried.report with
    | .error e => .error (.eval rule.name e)
    | .ok (some true) =>
      let done := rule.consequence tried.fact
      match done.report with
      | .error e => .error (.eval rule.name e)
      | .ok flow =>
        if wantsRestart ignoreFactChanges tried.fact done.fact flow then
          .ok ⟨done.fact, [rule.name], true⟩
        else if flow = .stop then
          .ok ⟨done.fact, [rule.name], false⟩
        else
          (pass ignoreFactChanges done.fact rest).map fun p =>
            { p with matched := rule.name :: p.matched }
    | .ok _ => pass ignoreFactChanges tried.fact rest

/-- The error for a restart that is not allowed any more. -/
def exhausted (settings : EngineSettings) : ChainError :=
  if settings.maxRestarts + 1 = 0 then .restartOverflow else .restartLimit settings.maxRestarts

/-- Runs passes until one does not ask to start over, or one does and no restart is left. -/
def passes (settings : EngineSettings) (rules : List Rule) (left : Nat) (fact : Fact) :
    Except ChainError Execution :=
  match pass settings.ignoreFactChanges fact rules with
  | .error e => .error e
  | .ok p =>
    if p.again then
      match left with
      | 0 => .error (exhausted settings)
      | left + 1 =>
        (passes settings rules left p.fact).map fun e =>
          { e with matchPath := p.matched ++ e.matchPath }
    else
      .ok ⟨p.fact, p.matched⟩

/-- Runs rules on a fact. -/
def run (settings : EngineSettings) (rules : List Rule) (fact : Fact) :
    Except ChainError Execution :=
  passes settings rules settings.maxRestarts.toNat fact

end Chain

end DecisionTable
