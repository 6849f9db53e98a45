import DecisionTable.Chaining.Signals
import DecisionTable.Proofs.Chaining.Pass

/-! # Runs as a loop

A run can also be told as a loop over one session, which goes on from rule to rule: an index
that goes up, or back to the first rule at a restart, and a counter of 32 bits for the restarts
(`Loop.turn`). Each turn evaluates one condition and may add a match to the log (`Leads`). A
pass is a stretch of turns (`Leads.pass`), and no part of the session but the fact passes from
one rule to the next.
-/

namespace DecisionTable

theorem RuleSession.foldl_receive (signals : List Signal) (s : RuleSession) :
    signals.foldl RuleSession.receive s =
      ⟨s.fact, (lastGate? signals).or s.gate, (lastFlow? signals).getD s.flow⟩ := by
  induction signals generalizing s with
  | nil => rfl
  | cons signal signals ih =>
      rw [List.foldl_cons, ih]
      cases signal <;>
        simp [receive, lastGate?, lastFlow?, List.findSome?_append]

namespace Chain

/-- A rule that matched and whose consequence succeeded. -/
structure Match where
  index : Nat
  rule : String
  /-- The fact before the consequence. -/
  before : Fact
  /-- The fact after it. -/
  after : Fact
  /-- What the consequence signalled. -/
  signals : List Signal

/-- Whether the rule asks to start over: its last signal says so, or lets the run go on, and then
    the fact has changed and changes count. -/
def Match.requestsRestart (ignoreFactChanges : Bool) (m : Match) : Bool :=
  match lastFlow? m.signals with
  | some .restart => true
  | some .stop => false
  | some .next | none => !ignoreFactChanges && !m.before.equivalent m.after

/-- A run under way. -/
structure Loop where
  session : RuleSession
  /-- The place of the rule that is tried next. -/
  index : Nat
  restarts : UInt32
  matchPath : List String

/-- A run that goes on or has ended. -/
inductive Progress where
  | running (s : Loop)
  | ended (result : Except ChainError Execution)

namespace Loop

/-- The run on a fact before the first rule. -/
def start (fact : Fact) : Loop := ⟨⟨fact, none, .next⟩, 0, 0, []⟩

/-- Goes back to the first rule, if the settings allow one restart more. -/
def restarted (settings : EngineSettings) (s : Loop) : Progress :=
  if s.restarts + 1 = 0 then .ended (.error .restartOverflow)
  else if settings.maxRestarts < s.restarts + 1 then
    .ended (.error (.restartLimit settings.maxRestarts))
  else .running { s with index := 0, restarts := s.restarts + 1 }

/-- Goes on as the session says. -/
def proceed (settings : EngineSettings) (before : Fact) (s : Loop) : Progress :=
  match s.session.flow with
  | .stop => .ended (.ok ⟨s.session.fact, s.matchPath⟩)
  | .restart => s.restarted settings
  | .next =>
    if !settings.ignoreFactChanges && !before.equivalent s.session.fact then s.restarted settings
    else .running { s with index := s.index + 1 }

/-- Tries a rule: what matched, and how the run goes on. -/
def turn (settings : EngineSettings) (rule : SignallingRule) (s : Loop) :
    Option Match × Progress :=
  let tried := rule.condition s.session.fact
  match tried.report with
  | .error e => (none, .ended (.error (.eval rule.name e)))
  | .ok signals =>
    let session := signals.foldl RuleSession.receive
      { s.session with fact := tried.fact, gate := none }
    if session.gate = some true then
      let done := rule.consequence session.fact
      match done.report with
      | .error e => (none, .ended (.error (.eval rule.name e)))
      | .ok signals =>
        (some ⟨s.index, rule.name, session.fact, done.fact, signals⟩,
          proceed settings session.fact
            { s with
              session := signals.foldl RuleSession.receive
                { session with fact := done.fact, flow := .next }
              matchPath := s.matchPath ++ [rule.name] })
    else (none, .running { s with session, index := s.index + 1 })

end Loop

/-- A number of turns, each of which evaluates one condition, with the matches on the way. Behind
    the last rule the run ends. -/
inductive Leads (settings : EngineSettings) (rules : List SignallingRule) :
    Progress → Nat → List Match → Progress → Prop
  | refl (p : Progress) : Leads settings rules p 0 [] p
  | finish {s : Loop} (done : rules[s.index]? = none) :
      Leads settings rules (.running s) 0 [] (.ended (.ok ⟨s.session.fact, s.matchPath⟩))
  | turn {s : Loop} {rule : SignallingRule} {n : Nat} {log : List Match} {p : Progress}
      (found : rules[s.index]? = some rule)
      (rest : Leads settings rules (s.turn settings rule).2 n log p) :
      Leads settings rules (.running s) (n + 1) ((s.turn settings rule).1.toList ++ log) p

namespace Leads

variable {settings : EngineSettings} {rules : List SignallingRule}

theorem trans {p q r : Progress} {n k : Nat} {log log' : List Match}
    (front : Leads settings rules p n log q) (behind : Leads settings rules q k log' r) :
    Leads settings rules p (n + k) (log ++ log') r := by
  induction front with
  | refl => simpa using behind
  | finish done =>
      cases behind
      exact .finish done
  | turn found _ ih =>
      rw [Nat.add_right_comm, List.append_assoc]
      exact .turn found (ih behind)

/-- A run ends in one way. -/
theorem unique {p : Progress} {n n' : Nat} {log log' : List Match}
    {result result' : Except ChainError Execution}
    (h : Leads settings rules p n log (.ended result))
    (h' : Leads settings rules p n' log' (.ended result')) :
    n = n' ∧ log = log' ∧ result = result' := by
  generalize ended : Progress.ended result = q at h
  induction h generalizing n' log' with
  | refl =>
      subst ended
      cases h'
      exact ⟨rfl, rfl, rfl⟩
  | finish done =>
      cases ended
      cases h' with
      | finish => exact ⟨rfl, rfl, rfl⟩
      | turn found => rw [done] at found; cases found
  | turn found _ ih =>
      cases h' with
      | finish done => rw [found] at done; cases done
      | turn found' rest' =>
          rw [found] at found'
          cases found'
          obtain ⟨rfl, rfl, same⟩ := ih rest' ended
          exact ⟨rfl, rfl, same⟩

end Leads

/-- The matches of one pass: each stands behind the one before it, and at most the last asks to
    start over. -/
structure Segment (ignoreFactChanges again : Bool) (log : List Match) : Prop where
  ascending : log.Pairwise (·.index < ·.index)
  quiet : ∀ m ∈ log.dropLast, m.requestsRestart ignoreFactChanges = false
  last : log.getLast?.any (·.requestsRestart ignoreFactChanges) = again

namespace Segment

variable {ignoreFactChanges again : Bool} {log : List Match}

theorem nil : Segment ignoreFactChanges false [] :=
  ⟨List.Pairwise.nil, by simp, rfl⟩

theorem single (m : Match) :
    Segment ignoreFactChanges (m.requestsRestart ignoreFactChanges) [m] :=
  ⟨List.pairwise_singleton _ m, by simp, rfl⟩

theorem cons {m : Match} (segment : Segment ignoreFactChanges again log)
    (quiet : m.requestsRestart ignoreFactChanges = false)
    (before : ∀ other ∈ log, m.index < other.index) :
    Segment ignoreFactChanges again (m :: log) := by
  refine ⟨List.pairwise_cons.2 ⟨before, segment.ascending⟩, ?_, ?_⟩
  · cases log with
    | nil => simp
    | cons next log =>
        rw [List.dropLast_cons_cons, List.forall_mem_cons]
        exact ⟨quiet, segment.quiet⟩
  · rw [← segment.last]
    cases log with
    | nil => simp [quiet]
    | cons next log => rw [List.getLast?_cons_cons]

theorem countP (segment : Segment ignoreFactChanges again log) :
    log.countP (·.requestsRestart ignoreFactChanges) = again.toNat := by
  rw [← segment.last]
  obtain rfl | ⟨front, m, rfl⟩ := List.eq_nil_or_concat log
  · rfl
  · have quiet : front.countP (·.requestsRestart ignoreFactChanges) = 0 :=
      List.countP_eq_zero.2 fun other mem => by
        simpa using segment.quiet other (by simpa using mem)
    cases asks : m.requestsRestart ignoreFactChanges <;> simp [quiet, asks]

end Segment

theorem Match.requestsRestart_eq (ignoreFactChanges : Bool) (m : Match) :
    m.requestsRestart ignoreFactChanges =
      wantsRestart ignoreFactChanges m.before m.after ((lastFlow? m.signals).getD .next) := by
  rw [requestsRestart]
  cases lastFlow? m.signals with
  | none => rfl
  | some flow => cases flow <;> rfl

theorem Match.flow_eq_next {ignoreFactChanges : Bool} {m : Match}
    (quiet : m.requestsRestart ignoreFactChanges = false)
    (onward : lastFlow? m.signals ≠ some .stop) : (lastFlow? m.signals).getD .next = .next := by
  rw [requestsRestart] at quiet
  cases flow : lastFlow? m.signals with
  | none => rfl
  | some said =>
      rw [flow] at quiet onward
      cases said with
      | next => rfl
      | stop => exact absurd rfl onward
      | restart => cases quiet

/-- The match is what its rule makes of a fact that the rule's condition has opened on. -/
structure Match.Of (rule : SignallingRule) (m : Match) : Prop where
  name : m.rule = rule.name
  opened : ∃ fact signals, rule.condition fact = ⟨m.before, .ok signals⟩ ∧
    lastGate? signals = some true
  done : rule.consequence m.before = ⟨m.after, .ok m.signals⟩

namespace Loop

/-- What a turn can do, and what it hands on. Of the session that is the fact alone. -/
inductive Turns (settings : EngineSettings) (rule : SignallingRule) (s : Loop) :
    Option Match × Progress → Prop
  | failed {before : Fact} {e : EvalError}
      (tried : rule.toRule.condition s.session.fact = ⟨before, .error e⟩) :
      Turns settings rule s (none, .ended (.error (.eval rule.name e)))
  | shut {gate : Option Bool} {s' : Loop}
      (tried : rule.toRule.condition s.session.fact = ⟨s'.session.fact, .ok gate⟩)
      (shut : gate ≠ some true) (index : s'.index = s.index + 1)
      (restarts : s'.restarts = s.restarts) (matchPath : s'.matchPath = s.matchPath) :
      Turns settings rule s (none, .running s')
  | stuck {before after : Fact} {e : EvalError}
      (tried : rule.toRule.condition s.session.fact = ⟨before, .ok (some true)⟩)
      (done : rule.toRule.consequence before = ⟨after, .error e⟩) :
      Turns settings rule s (none, .ended (.error (.eval rule.name e)))
  | matched {m : Match} {s' : Loop}
      (tried : rule.toRule.condition s.session.fact = ⟨m.before, .ok (some true)⟩)
      (of : m.Of rule) (place : m.index = s.index) (fact : s'.session.fact = m.after)
      (index : s'.index = s.index) (restarts : s'.restarts = s.restarts)
      (matchPath : s'.matchPath = s.matchPath ++ [m.rule]) :
      Turns settings rule s (some m,
        if m.requestsRestart settings.ignoreFactChanges then s'.restarted settings
        else if lastFlow? m.signals = some .stop then .ended (.ok ⟨m.after, s'.matchPath⟩)
        else .running { s' with index := s'.index + 1 })

theorem proceed_eq {settings : EngineSettings} {m : Match} {s : Loop}
    (fact : s.session.fact = m.after)
    (flow : s.session.flow = (lastFlow? m.signals).getD .next) :
    proceed settings m.before s =
      if m.requestsRestart settings.ignoreFactChanges then s.restarted settings
      else if lastFlow? m.signals = some .stop then .ended (.ok ⟨m.after, s.matchPath⟩)
      else .running { s with index := s.index + 1 } := by
  rw [proceed, flow, fact, Match.requestsRestart]
  cases lastFlow? m.signals with
  | none => rfl
  | some flow => cases flow <;> simp

theorem turns (settings : EngineSettings) (rule : SignallingRule) (s : Loop) :
    Turns settings rule s (s.turn settings rule) := by
  cases tried : rule.condition s.session.fact with
  | mk before report =>
      have gate := SignallingRule.toRule_condition tried
      cases report with
      | error e =>
          rw [turn, tried]
          exact .failed gate
      | ok signals =>
          by_cases opened : lastGate? signals = some true
          · rw [Except.map, opened] at gate
            cases done : rule.consequence before with
            | mk after report =>
                cases report with
                | error e =>
                    have : s.turn settings rule = (none, .ended (.error (.eval rule.name e))) := by
                      simp [turn, tried, RuleSession.foldl_receive, opened, done]
                    rw [this]
                    exact .stuck gate (SignallingRule.toRule_consequence done)
                | ok signals' =>
                    let m : Match := ⟨s.index, rule.name, before, after, signals'⟩
                    let s' : Loop := ⟨⟨after, (lastGate? signals').or (some true),
                      (lastFlow? signals').getD .next⟩, s.index, s.restarts,
                      s.matchPath ++ [rule.name]⟩
                    have : s.turn settings rule = (some m, proceed settings m.before s') := by
                      simp [turn, tried, RuleSession.foldl_receive, opened, done, m, s']
                    rw [this, proceed_eq (m := m) rfl rfl]
                    exact .matched gate ⟨rfl, ⟨_, signals, tried, opened⟩, done⟩ rfl rfl rfl rfl rfl
          · have : s.turn settings rule = (none, .running ⟨⟨before, lastGate? signals,
                (lastFlow? signals).getD s.session.flow⟩, s.index + 1, s.restarts,
                s.matchPath⟩) := by
              simp [turn, tried, RuleSession.foldl_receive, opened]
            rw [this]
            exact .shut gate opened rfl rfl rfl

end Loop

/-- How the loop goes through a pass: it ends with it, or behind it the run starts over. -/
def Loop.EndsPass (settings : EngineSettings) (s : Loop) (log : List Match) (p : Progress) :
    Except ChainError Pass → Prop
  | .error e => Segment settings.ignoreFactChanges false log ∧ p = .ended (.error e)
  | .ok q => Segment settings.ignoreFactChanges q.again log ∧ log.map (·.rule) = q.matched ∧
      if q.again then ∃ s' : Loop, p = s'.restarted settings ∧ s'.session.fact = q.fact ∧
        s'.restarts = s.restarts ∧ s'.matchPath = s.matchPath ++ q.matched
      else p = .ended (.ok ⟨q.fact, s.matchPath ++ q.matched⟩)

namespace Loop.EndsPass

variable {settings : EngineSettings} {s s' : Loop} {log : List Match} {p : Progress}
  {result : Except ChainError Pass}

theorem congr (ends : s'.EndsPass settings log p result) (restarts : s'.restarts = s.restarts)
    (matchPath : s'.matchPath = s.matchPath) : s.EndsPass settings log p result := by
  simpa only [EndsPass, restarts, matchPath] using ends

/-- A match that does not ask to start over adds its name to the pass. -/
theorem cons {m : Match} (ends : s'.EndsPass settings log p result)
    (restarts : s'.restarts = s.restarts) (matchPath : s'.matchPath = s.matchPath ++ [m.rule])
    (quiet : m.requestsRestart settings.ignoreFactChanges = false)
    (before : ∀ other ∈ log, m.index < other.index) :
    s.EndsPass settings (m :: log) p
      (result.map fun q => { q with matched := m.rule :: q.matched }) := by
  cases result with
  | error e => exact ⟨ends.1.cons quiet before, ends.2⟩
  | ok q =>
      obtain ⟨segment, names, ends⟩ := ends
      refine ⟨segment.cons quiet before, by rw [List.map_cons, names], ?_⟩
      simpa only [restarts, matchPath, List.append_assoc, List.singleton_append] using ends

end Loop.EndsPass

/-- The loop goes through the rest of a pass as the pass goes. -/
def Loop.Passes (settings : EngineSettings) (rules rest : List SignallingRule) (s : Loop) : Prop :=
  ∃ n log p, Leads settings rules (.running s) n log p ∧ n ≤ rest.length ∧
    (∀ m ∈ log, s.index ≤ m.index) ∧
    s.EndsPass settings log p (Chain.pass settings.ignoreFactChanges s.session.fact
      (rest.map SignallingRule.toRule))

/-- A match ends the pass, or the loop goes through the rules behind it. -/
theorem Loop.Passes.matched {settings : EngineSettings} {rules rest : List SignallingRule}
    {rule : SignallingRule} {s s' : Loop} {m : Match}
    (tried : rule.toRule.condition s.session.fact = ⟨m.before, .ok (some true)⟩)
    (of : m.Of rule) (place : m.index = s.index) (fact : s'.session.fact = m.after)
    (index : s'.index = s.index) (restarts : s'.restarts = s.restarts)
    (matchPath : s'.matchPath = s.matchPath ++ [m.rule])
    (leads : ∀ n log p, Leads settings rules
      (if m.requestsRestart settings.ignoreFactChanges then s'.restarted settings
        else if lastFlow? m.signals = some .stop then .ended (.ok ⟨m.after, s'.matchPath⟩)
        else .running { s' with index := s'.index + 1 }) n log p →
      Leads settings rules (.running s) (n + 1) (m :: log) p)
    (next : Loop.Passes settings rules rest { s' with index := s'.index + 1 }) :
    s.Passes settings rules (rule :: rest) := by
  have done : rule.toRule.consequence m.before =
      ⟨m.after, .ok ((lastFlow? m.signals).getD .next)⟩ :=
    SignallingRule.toRule_consequence of.done
  have name : rule.toRule.name = m.rule := of.name.symm
  have request := Match.requestsRestart_eq settings.ignoreFactChanges m
  rw [Passes, List.map_cons]
  cases asks : m.requestsRestart settings.ignoreFactChanges with
  | true =>
      rw [asks] at request
      rw [pass_again tried done request.symm, name]
      refine ⟨1, [m], s'.restarted settings, ?_, by simp, by simp [place], ?_⟩
      · simpa [asks] using leads 0 [] _ (.refl _)
      · exact ⟨asks ▸ .single m, rfl, s', rfl, fact, restarts, matchPath⟩
  | false =>
      by_cases stop : lastFlow? m.signals = some .stop
      · rw [stop] at done
        rw [pass_stop tried done, name]
        refine ⟨1, [m], _, ?_, by simp, by simp [place], asks ▸ .single m, rfl, rfl⟩
        simpa [asks, stop, matchPath] using leads 0 [] _ (.refl _)
      · rw [Match.flow_eq_next asks stop] at done request
        rw [pass_next tried done (request.symm.trans asks), name]
        obtain ⟨n, log, p, behind, few, above, ends⟩ := next
        have later (other : Match) (mem : other ∈ log) : m.index < other.index := by
          have : s'.index + 1 ≤ other.index := above other mem
          omega
        refine ⟨n + 1, m :: log, p, ?_, Nat.succ_le_succ few, ?_, ?_⟩
        · simpa [asks, stop] using leads n log p (by simpa [asks, stop] using behind)
        · rw [List.forall_mem_cons]
          exact ⟨Nat.le_of_eq place.symm, fun other mem => by
            have := later other mem
            omega⟩
        · rw [← fact]
          exact ends.cons restarts matchPath asks later

theorem Leads.pass (settings : EngineSettings) {rules rest : List SignallingRule} {s : Loop}
    (behind : rules.drop s.index = rest) : s.Passes settings rules rest := by
  induction rest generalizing s with
  | nil =>
      refine ⟨0, [], _, .finish ?_, Nat.zero_le _, by simp, .nil, rfl, ?_⟩
      · simpa using behind
      · simp
  | cons rule rest ih =>
      have found : rules[s.index]? = some rule := by
        rw [← List.head?_drop, behind]
        rfl
      have behind' : rules.drop (s.index + 1) = rest := by
        rw [← List.tail_drop, behind]
        rfl
      have turns := s.turns settings rule
      have leads := fun n log p => @Leads.turn settings rules s rule n log p found
      generalize s.turn settings rule = t at turns leads
      cases turns with
      | failed tried =>
          rw [Loop.Passes, List.map_cons, pass_failed tried]
          exact ⟨1, [], _, leads 0 [] _ (.refl _), by simp, by simp, .nil, rfl⟩
      | stuck tried done =>
          rw [Loop.Passes, List.map_cons, pass_stuck tried done]
          exact ⟨1, [], _, leads 0 [] _ (.refl _), by simp, by simp, .nil, rfl⟩
      | shut tried shut index restarts matchPath =>
          obtain ⟨n, log, p, behind, few, above, ends⟩ := ih (index ▸ behind')
          rw [Loop.Passes, List.map_cons, pass_shut tried shut]
          refine ⟨n + 1, log, p, leads n log p behind, Nat.succ_le_succ few, ?_,
            ends.congr restarts matchPath⟩
          intro m mem
          have := above m mem
          omega
      | @matched m s' tried of place fact index restarts matchPath =>
          have next := ih (s := { s' with index := s'.index + 1 }) (by rw [index]; exact behind')
          exact .matched tried of place fact index restarts matchPath leads next

end Chain

end DecisionTable
