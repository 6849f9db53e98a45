import DecisionTable.Proofs.Chaining.Restarts

/-! # The counter of restarts

The counter goes up before it is compared with the limit, so it has to hold one more than the
limit. It does unless the limit is the largest number of 32 bits. With that limit a run counts
truly as long as it asks for fewer than 2^32 restarts, and with any other it always does
(`counted_iff`).
-/

namespace DecisionTable

theorem Execution.map_behind_nil (result : Except ChainError Execution) :
    result.map (behind []) = result := by
  cases result <;> rfl

namespace Chain

namespace Loop

variable {settings : EngineSettings} {s s' : Loop}

/-- A run that starts over has counted it. -/
theorem toNat_of_restarted (onward : s.restarted settings = .running s') :
    s'.restarts.toNat = s.restarts.toNat + 1 := by
  rw [restarted] at onward
  split at onward
  case isTrue => cases onward
  case isFalse room =>
    split at onward
    case isTrue => cases onward
    case isFalse =>
      cases onward
      exact toNat_succ room

/-- The counter goes up with the matches that ask to start over. -/
theorem toNat_restarts_turn {rule : SignallingRule}
    (onward : (s.turn settings rule).2 = .running s') :
    s'.restarts.toNat = s.restarts.toNat +
      (s.turn settings rule).1.toList.countP (·.requestsRestart settings.ignoreFactChanges) := by
  have turns := s.turns settings rule
  generalize s.turn settings rule = t at turns onward
  cases turns with
  | failed | stuck => cases onward
  | shut _ _ _ restarts =>
      cases onward
      simp [restarts]
  | matched _ _ _ _ _ restarts =>
      dsimp only at onward
      split at onward
      case isTrue asks => simp [toNat_of_restarted onward, restarts, asks]
      case isFalse quiet =>
        split at onward <;> cases onward
        simp [restarts, quiet]

end Loop

namespace Leads

variable {settings : EngineSettings} {rules : List SignallingRule}

/-- What a run does on the way stands at the front of what it does until it ends. -/
theorem onward {p q : Progress} {n n' : Nat} {log log' : List Match}
    {result : Except ChainError Execution} (front : Leads settings rules p n log q)
    (all : Leads settings rules p n' log' (.ended result)) :
    ∃ k rest, Leads settings rules q k rest (.ended result) ∧ log' = log ++ rest := by
  induction front generalizing n' log' with
  | refl => exact ⟨n', log', all, rfl⟩
  | finish done =>
      cases all with
      | finish => exact ⟨0, [], .refl _, rfl⟩
      | turn found => rw [done] at found; cases found
  | turn found _ ih =>
      cases all with
      | finish done => rw [found] at done; cases done
      | turn found' behind =>
          rw [found] at found'
          cases found'
          obtain ⟨k, rest, leads, rfl⟩ := ih behind
          exact ⟨k, rest, leads, by rw [List.append_assoc]⟩

/-- On the whole way of a run the counter says how often it was asked to start over. -/
theorem toNat_restarts {s s' : Loop} {n : Nat} {log : List Match}
    (leads : Leads settings rules (.running s) n log (.running s')) :
    s'.restarts.toNat = s.restarts.toNat +
      log.countP (·.requestsRestart settings.ignoreFactChanges) := by
  generalize here : Progress.running s = p at leads
  generalize there : Progress.running s' = q at leads
  induction leads generalizing s with
  | refl =>
      subst here
      cases there
      rfl
  | finish => cases there
  | @turn s₀ rule n log p found rest ih =>
      cases here
      cases next : (s₀.turn settings rule).2 with
      | ended result =>
          rw [next] at rest
          cases rest
          cases there
      | running s₁ =>
          have first := Loop.toNat_restarts_turn next
          have others := ih next.symm there
          rw [List.countP_append]
          omega

end Leads

variable {settings : EngineSettings} {rules : List SignallingRule} {fact : Fact}

/-- A place of a run where its counter goes up: a match that asks to start over, behind others. -/
structure Increment (settings : EngineSettings) (rules : List SignallingRule) (fact : Fact)
    (log : List Match) (s : Loop) (m : Match) : Prop where
  reached : ∃ n, Leads settings rules (.running (.start fact)) n log (.running s)
  matched : ∃ rule, rules[s.index]? = some rule ∧ (s.turn settings rule).1 = some m
  asks : m.requestsRestart settings.ignoreFactChanges = true

namespace Increment

variable {log : List Match} {s : Loop} {m : Match}

theorem leads (up : Increment settings rules fact log s m) :
    ∃ n p, Leads settings rules (.running (.start fact)) n (log ++ [m]) p := by
  obtain ⟨⟨n, front⟩, ⟨rule, found, matched⟩, -⟩ := up
  refine ⟨n + 1, (s.turn settings rule).2, front.trans ?_⟩
  simpa [matched] using Leads.turn found (.refl (s.turn settings rule).2)

/-- The number of restarts that are asked for is one more than the counter says so far. -/
theorem countP_eq (up : Increment settings rules fact log s m) :
    (log ++ [m]).countP (·.requestsRestart settings.ignoreFactChanges) =
      s.restarts.toNat + 1 := by
  obtain ⟨⟨n, front⟩, -, asks⟩ := up
  have none : (Loop.start fact).restarts.toNat = 0 := rfl
  rw [List.countP_append, front.toNat_restarts, none]
  simp [asks]

end Increment

/-- A run that can trust its counter. -/
structure Counted (settings : EngineSettings) (rules : List SignallingRule) (fact : Fact) :
    Prop where
  /-- The counter has room wherever it goes up. -/
  room : ∀ log s m, Increment settings rules fact log s m → s.restarts.toNat < 4294967295
  /-- What is compared with the limit is the number of restarts that were asked for. -/
  exact : ∀ log s m, Increment settings rules fact log s m →
    (s.restarts + 1).toNat =
      (log ++ [m]).countP (·.requestsRestart settings.ignoreFactChanges)
  /-- The run ends, and fails for its restarts if it asks for more than it may. -/
  limit : ∃ n log, Leads settings rules (.running (.start fact)) n log
      (.ended (run settings (rules.map SignallingRule.toRule) fact)) ∧
    (settings.maxRestarts.toNat < log.countP (·.requestsRestart settings.ignoreFactChanges) →
      run settings (rules.map SignallingRule.toRule) fact =
        .error (.restartLimit settings.maxRestarts))

theorem EndsRun.few_or_exhausted {left : Nat} {segments : List (List Match)}
    {result : Except ChainError Execution} (ends : EndsRun settings left segments result) :
    segments.flatten.countP (·.requestsRestart settings.ignoreFactChanges) ≤ left ∨
      segments.flatten.countP (·.requestsRestart settings.ignoreFactChanges) = left + 1 ∧
        result = .error (exhausted settings) := by
  match result, ends with
  | .ok e, ⟨_, _, _, few⟩ => exact .inl few
  | .error (.eval _ _), few => exact .inl few
  | .error (.restartLimit _), ⟨same, all⟩ => exact .inr ⟨all, by rw [same]⟩
  | .error .restartOverflow, ⟨same, all⟩ => exact .inr ⟨all, by rw [same]⟩

theorem exists_endsRun (settings : EngineSettings) (rules : List SignallingRule) (fact : Fact) :
    ∃ n segments, Leads settings rules (.running (.start fact)) n segments.flatten
        (.ended (run settings (rules.map SignallingRule.toRule) fact)) ∧
      EndsRun settings settings.maxRestarts.toNat segments
        (run settings (rules.map SignallingRule.toRule) fact) := by
  obtain ⟨n, segments, -, -, leads, ends⟩ :=
    Leads.passes settings rules settings.maxRestarts.toNat (s := .start fact) rfl (Nat.zero_add _)
  refine ⟨n, segments, ?_, ends⟩
  rwa [show (Loop.start fact).matchPath = [] from rfl, Execution.map_behind_nil] at leads

/-- A run whose counter overflows could not trust it. -/
theorem Counted.ne_overflow (counted : Counted settings rules fact) :
    run settings (rules.map SignallingRule.toRule) fact ≠ .error .restartOverflow := by
  intro overflows
  obtain ⟨n, log, leads, limit⟩ := counted.limit
  obtain ⟨n', segments, leads', ends⟩ := exists_endsRun settings rules fact
  obtain ⟨-, rfl, -⟩ := leads.unique leads'
  rw [overflows] at ends limit
  have beyond : settings.maxRestarts.toNat <
      segments.flatten.countP (·.requestsRestart settings.ignoreFactChanges) :=
    Nat.lt_of_lt_of_eq (Nat.lt_succ_self _) ends.2.symm
  cases limit beyond

theorem counted_of_few (few : ∀ n log p, Leads settings rules (.running (.start fact)) n log p →
      log.countP (·.requestsRestart settings.ignoreFactChanges) < 4294967296) :
    Counted settings rules fact := by
  have room {log s m} (up : Increment settings rules fact log s m) :
      s.restarts.toNat < 4294967295 := by
    obtain ⟨n, p, leads⟩ := up.leads
    have := few n _ p leads
    have := up.countP_eq
    omega
  refine ⟨fun _ _ _ => room, fun log s m up => ?_, ?_⟩
  · rw [up.countP_eq]
    exact Loop.toNat_succ (Loop.succ_ne_zero (room up))
  · obtain ⟨n, segments, leads, ends⟩ := exists_endsRun settings rules fact
    refine ⟨n, _, leads, fun beyond => ?_⟩
    have small := few n _ _ leads
    rcases ends.few_or_exhausted with within | ⟨all, result⟩
    · exact absurd within (Nat.not_le.2 beyond)
    · rw [result, exhausted, if_neg (Loop.succ_ne_zero (by omega))]

/-- The counter of a run is true, has room and stops the run at the limit unless the limit is the
    largest number of 32 bits and the run asks for 2^32 restarts. -/
theorem counted_iff (settings : EngineSettings) (rules : List SignallingRule) (fact : Fact) :
    Counted settings rules fact ↔ settings.maxRestarts < 4294967295 ∨
      ∀ n log p, Leads settings rules (.running (.start fact)) n log p →
        log.countP (·.requestsRestart settings.ignoreFactChanges) < 4294967296 := by
  obtain ⟨n', segments, all, ends⟩ := exists_endsRun settings rules fact
  have front {n log p} (leads : Leads settings rules (.running (.start fact)) n log p) :
      log.countP (·.requestsRestart settings.ignoreFactChanges) ≤
        segments.flatten.countP (·.requestsRestart settings.ignoreFactChanges) := by
    obtain ⟨-, rest, -, split⟩ := leads.onward all
    rw [split, List.countP_append]
    exact Nat.le_add_right _ _
  constructor
  · intro counted
    by_cases room : settings.maxRestarts < 4294967295
    · exact .inl room
    refine .inr fun n log p leads => ?_
    have most := front leads
    have bound := settings.maxRestarts.toNat_lt
    rcases ends.few_or_exhausted with within | ⟨-, result⟩
    · omega
    · have limit : settings.maxRestarts = 4294967295 := by
        rw [UInt32.not_lt, UInt32.le_iff_toNat_le] at room
        exact UInt32.toNat_inj.1 (Nat.le_antisymm (Nat.le_of_lt_succ bound) room)
      rw [exhausted, limit] at result
      exact absurd result counted.ne_overflow
  · rintro (room | few)
    · refine counted_of_few fun n log p leads => ?_
      have := front leads
      rw [UInt32.lt_iff_toNat_lt] at room
      have room : settings.maxRestarts.toNat < 4294967295 := room
      rcases ends.few_or_exhausted with within | ⟨all, -⟩ <;> omega
    · exact counted_of_few few

/-- A run of which each pass asks to start over does not get beyond its restarts. -/
theorem passes_of_again {rules : List Rule}
    (again : ∀ fact, ∃ p, pass settings.ignoreFactChanges fact rules = .ok p ∧ p.again = true)
    (left : Nat) (fact : Fact) :
    passes settings rules left fact = .error (exhausted settings) := by
  obtain ⟨p, passed, more⟩ := again fact
  induction left generalizing fact p with
  | zero => simp only [passes, passed, more, if_true]
  | succ left ih =>
      obtain ⟨q, passed', more'⟩ := again p.fact
      simp only [passes, passed, more, if_true, ih p.fact q passed' more', Except.map]

/-- Starts over on every fact. -/
def restarter : SignallingRule where
  name := "again"
  condition fact := ⟨fact, .ok [.gate true]⟩
  consequence fact := ⟨fact, .ok [.flow .restart]⟩

/-- With the largest limit a run that keeps asking to start over ends with its counter and not at
    its limit. -/
theorem not_counted_restarter :
    run ⟨true, 4294967295⟩ [restarter.toRule] [] = .error .restartOverflow ∧
      ¬ Counted ⟨true, 4294967295⟩ [restarter] [] := by
  have overflows : run ⟨true, 4294967295⟩ [restarter.toRule] [] = .error .restartOverflow :=
    @passes_of_again ⟨true, 4294967295⟩ _ (fun fact => ⟨_, rfl, rfl⟩) _ _
  exact ⟨overflows, fun counted => counted.ne_overflow overflows⟩

end Chain

end DecisionTable
