import DecisionTable.Proofs.Chaining.Loop

/-! # Restarts of a run

A run is a sequence of passes, and each but the last ends with a request to start over
(`InPasses`). The settings bound the passes, and so the conditions that are evaluated
(`run_bounded`).
-/

namespace DecisionTable

/-- The run with names put before its own. -/
def Execution.behind (names : List String) (e : Execution) : Execution :=
  { e with matchPath := names ++ e.matchPath }

theorem Execution.map_behind_map_behind (names names' : List String)
    (result : Except ChainError Execution) :
    (result.map (behind names')).map (behind names) = result.map (behind (names ++ names')) := by
  cases result with
  | error e => rfl
  | ok e => simp [Except.map, behind]

namespace Chain

theorem eval_of_pass {ignoreFactChanges : Bool} {fact : Fact} {rules : List Rule} {e : ChainError}
    (failed : pass ignoreFactChanges fact rules = .error e) :
    ∃ rule cause, e = .eval rule cause := by
  induction rules generalizing fact with
  | nil => cases failed
  | cons rule rest ih =>
      have first := head ignoreFactChanges fact rule rest
      rw [failed] at first
      generalize result : Except.error e = p at first
      cases first with
      | failed | stuck =>
          cases result
          exact ⟨_, _, rfl⟩
      | shut => exact ih result.symm
      | again | stop => cases result
      | @next before after tried =>
          cases behind : pass ignoreFactChanges after rest with
          | ok p => rw [behind] at result; cases result
          | error e' =>
              rw [behind] at result
              cases result
              exact ih behind

namespace Leads

variable {settings : EngineSettings} {rules : List SignallingRule}

/-- Each match is one of its rule. -/
theorem matches_of {p q : Progress} {n : Nat} {log : List Match}
    (h : Leads settings rules p n log q) :
    ∀ m ∈ log, ∃ rule, rules[m.index]? = some rule ∧ m.Of rule := by
  induction h with
  | refl => simp
  | finish => simp
  | @turn s rule n log p found rest ih =>
      have turns := s.turns settings rule
      generalize s.turn settings rule = t at turns
      cases turns with
      | failed | shut | stuck => exact ih
      | matched _ of place =>
          exact List.forall_mem_cons.2 ⟨⟨rule, place ▸ found, of⟩, ih⟩

end Leads

namespace Loop

variable {settings : EngineSettings} {s : Loop}

theorem succ_ne_zero {count : UInt32} (room : count.toNat < 4294967295) : count + 1 ≠ 0 := by
  intro full
  have := congrArg UInt32.toNat full
  rw [UInt32.toNat_add, UInt32.toNat_one, UInt32.toNat_zero] at this
  omega

theorem toNat_succ {count : UInt32} (room : count + 1 ≠ 0) :
    (count + 1).toNat = count.toNat + 1 := by
  have bound := count.toNat_lt
  have some : (count + 1).toNat ≠ 0 := fun none => room (UInt32.toNat_inj.1 none)
  rw [UInt32.toNat_add, UInt32.toNat_one] at some ⊢
  omega

theorem restarted_exhausted (spent : s.restarts = settings.maxRestarts) :
    s.restarted settings = .ended (.error (exhausted settings)) := by
  rw [restarted, exhausted, spent]
  split
  · rfl
  · rename_i room
    rw [if_pos]
    rw [UInt32.lt_iff_toNat_lt, toNat_succ room]
    exact Nat.lt_succ_self _

theorem restarted_running {left : Nat}
    (room : s.restarts.toNat + (left + 1) = settings.maxRestarts.toNat) :
    ∃ s' : Loop, s.restarted settings = .running s' ∧ s'.session.fact = s.session.fact ∧
      s'.index = 0 ∧ s'.restarts.toNat + left = settings.maxRestarts.toNat ∧
      s'.matchPath = s.matchPath := by
  have bound := settings.maxRestarts.toNat_lt
  have next : s.restarts + 1 ≠ 0 := succ_ne_zero (by omega)
  have count := toNat_succ next
  have allowed : ¬ settings.maxRestarts < s.restarts + 1 := by
    rw [UInt32.lt_iff_toNat_lt, count]
    omega
  refine ⟨{ s with index := 0, restarts := s.restarts + 1 }, ?_, rfl, rfl, ?_, rfl⟩
  · rw [restarted, if_neg next, if_neg allowed]
  · rw [count]
    omega

end Loop

/-- Passes one behind the other: a pass is followed by another just when its last match asks to
    start over. -/
def InPasses (ignoreFactChanges : Bool) (segments : List (List Match)) : Prop :=
  ∀ i (h : i < segments.length),
    Segment ignoreFactChanges (decide (i + 1 < segments.length)) segments[i]

namespace InPasses

variable {ignoreFactChanges : Bool} {log : List Match} {segments : List (List Match)}

theorem single (segment : Segment ignoreFactChanges false log) :
    InPasses ignoreFactChanges [log] := by
  intro i h
  obtain rfl : i = 0 := by simpa using h
  exact segment

theorem cons (segment : Segment ignoreFactChanges true log)
    (behind : InPasses ignoreFactChanges segments) (nonempty : segments ≠ []) :
    InPasses ignoreFactChanges (log :: segments) := by
  intro i h
  cases i with
  | zero => 
    have : 0 < segments.length := List.length_pos_iff.2 nonempty
    simpa [this] using segment
  | succ i => simpa using behind i (by simpa using h)

end InPasses

/-- How a run ends that has some restarts left: with passes, with a failure in one of them, or with
    one request too many. -/
def EndsRun (settings : EngineSettings) (left : Nat) (segments : List (List Match)) :
    Except ChainError Execution → Prop
  | .ok e => e.matchPath = segments.flatten.map (·.rule) ∧ segments ≠ [] ∧
      InPasses settings.ignoreFactChanges segments ∧
      segments.flatten.countP (·.requestsRestart settings.ignoreFactChanges) ≤ left
  | .error (.eval _ _) =>
      segments.flatten.countP (·.requestsRestart settings.ignoreFactChanges) ≤ left
  | .error e => e = exhausted settings ∧
      segments.flatten.countP (·.requestsRestart settings.ignoreFactChanges) = left + 1

namespace EndsRun

variable {settings : EngineSettings} {left : Nat} {log : List Match}
  {segments : List (List Match)}

theorem of_exhausted (count : segments.flatten.countP
      (·.requestsRestart settings.ignoreFactChanges) = left + 1) :
    EndsRun settings left segments (.error (exhausted settings)) := by
  cases ends : exhausted settings with
  | eval => rw [exhausted] at ends; split at ends <;> cases ends
  | restartLimit | restartOverflow => exact ⟨ends.symm, count⟩

theorem cons {result : Except ChainError Execution}
    (segment : Segment settings.ignoreFactChanges true log)
    (ends : EndsRun settings left segments result) :
    EndsRun settings (left + 1) (log :: segments)
      (result.map (Execution.behind (log.map (·.rule)))) := by
  have count : (log :: segments).flatten.countP
      (·.requestsRestart settings.ignoreFactChanges) =
      segments.flatten.countP (·.requestsRestart settings.ignoreFactChanges) + 1 := by
    rw [List.flatten_cons, List.countP_append, segment.countP, Bool.toNat_true, Nat.add_comm]
  match result, ends with
  | .ok e, ⟨path, nonempty, passes, few⟩ =>
      refine ⟨?_, List.cons_ne_nil _ _, passes.cons segment nonempty, by omega⟩
      rw [Execution.behind, path, List.flatten_cons, List.map_append]
  | .error (.eval _ _), few => exact Nat.le_trans (Nat.le_of_eq count) (Nat.succ_le_succ few)
  | .error (.restartLimit _), ⟨same, all⟩ => exact ⟨same, by omega⟩
  | .error .restartOverflow, ⟨same, all⟩ => exact ⟨same, by omega⟩

theorem restartLimit_iff {result : Except ChainError Execution}
    (ends : EndsRun settings left segments result) (room : settings.maxRestarts + 1 ≠ 0)
    (limit : UInt32) :
    result = .error (.restartLimit limit) ↔ limit = settings.maxRestarts ∧
      segments.flatten.countP (·.requestsRestart settings.ignoreFactChanges) = left + 1 := by
  have last : exhausted settings = .restartLimit settings.maxRestarts := if_neg room
  match result, ends with
  | .ok e, ⟨_, _, _, few⟩ => exact ⟨nofun, fun ⟨_, all⟩ => by omega⟩
  | .error (.eval _ _), few =>
      exact ⟨nofun, fun ⟨_, all⟩ => absurd (Nat.le_trans (Nat.le_of_eq all.symm) few) (by omega)⟩
  | .error (.restartLimit other), ⟨same, all⟩ =>
      rw [last] at same
      cases same
      exact ⟨fun eq => by cases eq; exact ⟨rfl, all⟩, fun ⟨eq, _⟩ => by rw [eq]⟩
  | .error .restartOverflow, ⟨same, _⟩ => rw [last] at same; cases same

end EndsRun

theorem Leads.passes (settings : EngineSettings) (rules : List SignallingRule) (left : Nat)
    {s : Loop} (first : s.index = 0)
    (room : s.restarts.toNat + left = settings.maxRestarts.toNat) :
    ∃ n segments, n ≤ (left + 1) * rules.length ∧ segments.length ≤ left + 1 ∧
      Leads settings rules (.running s) n segments.flatten
        (.ended ((Chain.passes settings (rules.map SignallingRule.toRule) left s.session.fact).map
          (Execution.behind s.matchPath))) ∧
      EndsRun settings left segments
        (Chain.passes settings (rules.map SignallingRule.toRule) left s.session.fact) := by
  have all : rules.drop s.index = rules := by rw [first, List.drop_zero]
  obtain ⟨n, log, p, leads, few, -, ends⟩ := Leads.pass settings all
  have fewer : n ≤ (left + 1) * rules.length :=
    Nat.le_trans few (Nat.le_mul_of_pos_left _ (Nat.succ_pos left))
  rw [Chain.passes]
  cases result : Chain.pass settings.ignoreFactChanges s.session.fact
      (rules.map SignallingRule.toRule) with
  | error e =>
      rw [result] at ends
      obtain ⟨segment, rfl⟩ := ends
      obtain ⟨rule, cause, rfl⟩ := eval_of_pass result
      refine ⟨n, [log], fewer, Nat.le_add_left 1 left, ?_, ?_⟩
      · rw [List.flatten_singleton]
        exact leads
      · simp [EndsRun, segment.countP]
  | ok q =>
      rw [result] at ends
      obtain ⟨segment, names, ends⟩ := ends
      cases again : q.again with
      | false =>
          rw [again] at segment ends
          refine ⟨n, [log], fewer, Nat.le_add_left 1 left, ?_, ?_⟩
          · rw [List.flatten_singleton]
            rw [if_neg Bool.false_ne_true] at ends
            subst ends
            simpa [again, Execution.behind, Except.map] using leads
          · simp [EndsRun, again, segment.countP, names, InPasses.single segment]
      | true =>
          rw [again] at segment ends
          obtain ⟨s', rfl, fact, restarts, matchPath⟩ := ends
          simp only [again, if_true]
          cases left with
          | zero =>
              refine ⟨n, [log], fewer, Nat.le_add_left 1 0, ?_, .of_exhausted ?_⟩
              · have spent : s'.restarts = settings.maxRestarts := by
                  rw [restarts]
                  exact UInt32.toNat_inj.1 room
                rw [Loop.restarted_exhausted spent] at leads
                rw [List.flatten_singleton]
                exact leads
              · rw [List.flatten_singleton, segment.countP, Bool.toNat_true]
          | succ left =>
              rw [← restarts] at room
              obtain ⟨s'', running, fact', first', room', matchPath'⟩ :=
                Loop.restarted_running room
              obtain ⟨n', segments, few', short, leads', ends⟩ :=
                Leads.passes settings rules left first' room'
              rw [fact', fact] at leads' ends
              rw [running] at leads
              refine ⟨n + n', log :: segments, ?_, ?_, ?_, ?_⟩
              · rw [Nat.add_mul _ 1, Nat.one_mul, Nat.add_comm]
                exact Nat.add_le_add few' few
              · exact Nat.succ_le_succ short
              · have := leads.trans leads'
                rw [matchPath', matchPath, ← Execution.map_behind_map_behind] at this
                exact this
              · rw [← names]
                exact ends.cons segment

/-- A run of rules that do what they like to the session ends, after a bounded number of
    conditions. Its matches are passes, each in the order of the rules, and a pass is followed by
    another just when its last match asks to start over. The run fails for its restarts just when
    one more is asked for than allowed, before any failure and any stop. -/
theorem run_bounded {settings : EngineSettings} (room : settings.maxRestarts < 4294967295)
    (rules : List SignallingRule) (fact : Fact) :
    (∃ n log, Leads settings rules (.running (.start fact)) n log
      (.ended (run settings (rules.map SignallingRule.toRule) fact))) ∧
    ∀ n log result, Leads settings rules (.running (.start fact)) n log (.ended result) →
      result = run settings (rules.map SignallingRule.toRule) fact ∧
      n ≤ (settings.maxRestarts.toNat + 1) * rules.length ∧
      (∀ m ∈ log, ∃ rule, rules[m.index]? = some rule ∧ m.Of rule) ∧
      (∀ e, result = .ok e → e.matchPath = log.map (·.rule) ∧
        ∃ segments, log = segments.flatten ∧
          segments.length ≤ settings.maxRestarts.toNat + 1 ∧
          InPasses settings.ignoreFactChanges segments) ∧
      ∀ limit, result = .error (.restartLimit limit) ↔ limit = settings.maxRestarts ∧
        log.countP (·.requestsRestart settings.ignoreFactChanges) =
          settings.maxRestarts.toNat + 1 := by
  obtain ⟨n, segments, few, short, leads, ends⟩ :=
    Leads.passes settings rules settings.maxRestarts.toNat (s := .start fact) rfl (Nat.zero_add _)
  have outcome : (run settings (rules.map SignallingRule.toRule) fact).map
      (Execution.behind []) = run settings (rules.map SignallingRule.toRule) fact := by
    cases run settings (rules.map SignallingRule.toRule) fact <;> rfl
  have leads : Leads settings rules (.running (.start fact)) n segments.flatten
      (.ended (run settings (rules.map SignallingRule.toRule) fact)) := outcome ▸ leads
  have ends : EndsRun settings settings.maxRestarts.toNat segments
      (run settings (rules.map SignallingRule.toRule) fact) := ends
  refine ⟨⟨n, _, leads⟩, fun n' log result leads' => ?_⟩
  obtain ⟨rfl, rfl, rfl⟩ := leads.unique leads'
  refine ⟨rfl, few, leads.matches_of, fun e ok => ?_, ends.restartLimit_iff ?_⟩
  · rw [ok] at ends
    exact ⟨ends.1, segments, rfl, short, ends.2.2.1⟩
  · exact Loop.succ_ne_zero (UInt32.lt_iff_toNat_lt.1 room)

/-- Adds a member to facts of fewer than two, and starts over. -/
def grower : SignallingRule where
  name := "grow"
  condition fact := ⟨fact, .ok [.gate (fact.length < 2)]⟩
  consequence fact := ⟨fact ++ [(toString fact.length, .null)], .ok [.flow .next, .flow .restart]⟩

theorem run_bounded_grower :
    (1 : UInt32) < 4294967295 ∧ run ⟨true, 1⟩ [grower.toRule] [] = .error (.restartLimit 1) ∧
      ∃ n log, Leads ⟨true, 1⟩ [grower] (.running (.start [])) n log
          (.ended (.error (.restartLimit 1))) ∧
        n ≤ 2 ∧ log.countP (·.requestsRestart true) = 2 := by
  have limit : run ⟨true, 1⟩ [grower.toRule] [] = .error (.restartLimit 1) := by
    rfl
  obtain ⟨⟨n, log, leads⟩, bounded⟩ :=
    @run_bounded ⟨true, 1⟩ (by decide) [grower] []
  obtain ⟨-, few, -, -, asked⟩ := bounded n log _ leads
  exact ⟨by decide, limit, n, log, limit ▸ leads, few, ((asked 1).1 limit).2⟩

end Chain

end DecisionTable
