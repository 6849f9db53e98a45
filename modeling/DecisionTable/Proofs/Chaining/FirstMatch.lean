import DecisionTable.Proofs.Chaining.Pass
import DecisionTable.Rule.Set

/-! # First match

Compiled rules run as one reads a decision table. The first rule whose condition fails or holds
decides what comes of the fact, and the rules behind it are not looked at (`FirstMatch`). The
settings of the engine do not matter, since such a rule ends the run (`run_firstMatch`).
-/

namespace DecisionTable

/-- What rules make of a fact by the first whose condition does not just fail to hold. -/
inductive FirstMatch (fact : Fact) : RuleSet → Except ChainError Execution → Prop
  | unmatched {rules : RuleSet} (shut : ∀ r ∈ rules, r.condition.holds fact = .ok false) :
      FirstMatch fact rules (.ok ⟨fact, []⟩)
  | failed {before after : RuleSet} {r : CompiledRule} {e : EvalError}
      (shut : ∀ q ∈ before, q.condition.holds fact = .ok false)
      (tried : r.condition.holds fact = .error e) :
      FirstMatch fact (before ++ r :: after) (.error (.eval r.name e))
  | stuck {before after : RuleSet} {r : CompiledRule} {left : Fact} {e : EvalError}
      (shut : ∀ q ∈ before, q.condition.holds fact = .ok false)
      (tried : r.condition.holds fact = .ok true)
      (done : r.consequence.apply fact = ⟨left, .error e⟩) :
      FirstMatch fact (before ++ r :: after) (.error (.eval r.name e))
  | matched {before after : RuleSet} {r : CompiledRule} {changed : Fact}
      (shut : ∀ q ∈ before, q.condition.holds fact = .ok false)
      (tried : r.condition.holds fact = .ok true)
      (done : r.consequence.apply fact = ⟨changed, .ok ()⟩) :
      FirstMatch fact (before ++ r :: after) (.ok ⟨changed, [r.name]⟩)

namespace CompiledRule

variable {r : CompiledRule} {fact after : Fact}

theorem toRule_condition {holds : Except EvalError Bool} (tried : r.condition.holds fact = holds) :
    r.toRule.condition fact = ⟨fact, holds.map some⟩ := by
  simp only [toRule, tried]

theorem toRule_consequence {report : Except EvalError Unit}
    (done : r.consequence.apply fact = ⟨after, report⟩) :
    r.toRule.consequence fact = ⟨after, report.map fun _ => .stop⟩ := by
  simp only [toRule, done]

end CompiledRule

namespace Chain

variable {ignoreFactChanges : Bool} {fact : Fact} {rules before : RuleSet}

/-- A pass goes over rules whose conditions do not hold, and nothing comes of them. -/
theorem pass_append_shut (shut : ∀ r ∈ before, r.condition.holds fact = .ok false)
    (rest : List Rule) :
    pass ignoreFactChanges fact (before.map CompiledRule.toRule ++ rest) =
      pass ignoreFactChanges fact rest := by
  induction before with
  | nil => rfl
  | cons r before ih =>
      rw [List.forall_mem_cons] at shut
      rw [List.map_cons, List.cons_append,
        pass_shut (CompiledRule.toRule_condition shut.1) (by simp), ih shut.2]

end Chain

namespace FirstMatch

variable {fact : Fact} {rules : RuleSet} {result : Except ChainError Execution}

/-- The rule that decides ends the run. -/
theorem run_eq (h : FirstMatch fact rules result) (settings : EngineSettings) :
    Chain.run settings (rules.map CompiledRule.toRule) fact = result := by
  cases h with
  | unmatched shut =>
      apply Chain.run_of_pass_ok
      rw [← List.append_nil (rules.map _), Chain.pass_append_shut shut]
      rfl
  | failed shut tried =>
      apply Chain.run_of_pass_error
      rw [List.map_append, Chain.pass_append_shut shut]
      exact Chain.pass_failed (CompiledRule.toRule_condition tried)
  | stuck shut tried done =>
      apply Chain.run_of_pass_error
      rw [List.map_append, Chain.pass_append_shut shut]
      exact Chain.pass_stuck (CompiledRule.toRule_condition tried)
        (CompiledRule.toRule_consequence done)
  | matched shut tried done =>
      apply Chain.run_of_pass_ok
      rw [List.map_append, Chain.pass_append_shut shut]
      exact Chain.pass_stop (CompiledRule.toRule_condition tried)
        (CompiledRule.toRule_consequence done)

theorem cons {r : CompiledRule} (shut : r.condition.holds fact = .ok false)
    (h : FirstMatch fact rules result) : FirstMatch fact (r :: rules) result := by
  cases h with
  | unmatched others => exact .unmatched (List.forall_mem_cons.2 ⟨shut, others⟩)
  | failed others tried =>
      rw [← List.cons_append]
      exact .failed (List.forall_mem_cons.2 ⟨shut, others⟩) tried
  | stuck others tried done =>
      rw [← List.cons_append]
      exact .stuck (List.forall_mem_cons.2 ⟨shut, others⟩) tried done
  | matched others tried done =>
      rw [← List.cons_append]
      exact .matched (List.forall_mem_cons.2 ⟨shut, others⟩) tried done

/-- A rule whose condition fails or holds decides, whatever is behind it. -/
theorem exists_head {r : CompiledRule} (decides : r.condition.holds fact ≠ .ok false) :
    ∃ result, ∀ behind, FirstMatch fact (r :: behind) result := by
  have shut : ∀ q ∈ ([] : RuleSet), q.condition.holds fact = .ok false := by simp
  cases tried : r.condition.holds fact with
  | error e => exact ⟨_, fun _ => .failed shut tried⟩
  | ok holds =>
      cases holds with
      | false => exact absurd tried decides
      | true =>
          cases done : r.consequence.apply fact with
          | mk changed report =>
              cases report with
              | error e => exact ⟨_, fun _ => .stuck shut tried done⟩
              | ok => exact ⟨_, fun _ => .matched shut tried done⟩

/-- Some rule decides, so what is behind it does not matter. -/
theorem exists_append {r : CompiledRule} (mem : r ∈ rules)
    (decides : r.condition.holds fact ≠ .ok false) :
    ∃ result, ∀ behind, FirstMatch fact (rules ++ behind) result := by
  induction rules with
  | nil => cases mem
  | cons q rules ih =>
      by_cases shut : q.condition.holds fact = .ok false
      · have mem : r ∈ rules := by
          rcases List.mem_cons.1 mem with rfl | mem
          · exact absurd shut decides
          · exact mem
        obtain ⟨result, h⟩ := ih mem
        exact ⟨result, fun behind => (h behind).cons shut⟩
      · obtain ⟨result, h⟩ := exists_head shut
        exact ⟨result, fun behind => h (rules ++ behind)⟩

theorem exists_result (fact : Fact) (rules : RuleSet) : ∃ result, FirstMatch fact rules result := by
  by_cases decided : ∃ r ∈ rules, r.condition.holds fact ≠ .ok false
  · obtain ⟨r, mem, decides⟩ := decided
    obtain ⟨result, h⟩ := exists_append mem decides
    exact ⟨result, by simpa using h []⟩
  · exact ⟨_, .unmatched fun r mem =>
      Classical.byContradiction fun decides => decided ⟨r, mem, decides⟩⟩

end FirstMatch

/-- Under all settings, compiled rules make of a fact what the first of them makes of it whose
    condition fails or holds. Rules behind that one do not matter, and no run starts over. -/
theorem RuleSet.run_firstMatch (rules : RuleSet) (fact : Fact) (settings : EngineSettings) :
    (∀ result, Chain.run settings (rules.map CompiledRule.toRule) fact = result ↔
      FirstMatch fact rules result) ∧
    (∀ r ∈ rules, r.condition.holds fact ≠ .ok false → ∀ settings' behind,
      Chain.run settings' ((rules ++ behind).map CompiledRule.toRule) fact =
        Chain.run settings (rules.map CompiledRule.toRule) fact) ∧
    ∀ limit, Chain.run settings (rules.map CompiledRule.toRule) fact ≠
      .error (.restartLimit limit) := by
  obtain ⟨result, h⟩ := FirstMatch.exists_result fact rules
  rw [h.run_eq settings]
  refine ⟨fun other => ⟨fun same => same ▸ h, fun h' => ?_⟩,
    fun r mem decides settings' behind => ?_, fun limit same => ?_⟩
  · rw [← h.run_eq settings, h'.run_eq settings]
  · obtain ⟨result', all⟩ := FirstMatch.exists_append mem decides
    have alone : FirstMatch fact rules result' := by simpa using all []
    rw [(all behind).run_eq settings', ← h.run_eq settings, alone.run_eq settings]
  · rw [same] at h
    cases h

end DecisionTable
