import DecisionTable.Chaining.Run

/-! # What a pass does with its first rule

One equation for each way in which the first rule of a pass can go: a part of it fails, its gate
stays shut, or it matches and the pass ends there or goes on. These are all (`Head`). A pass
that fails or does not ask to start over is the whole run.
-/

namespace DecisionTable

namespace Chain

variable {ignoreFactChanges : Bool} {fact before after : Fact} {rule : Rule} {rest : List Rule}

theorem pass_failed {e : EvalError} (tried : rule.condition fact = ⟨before, .error e⟩) :
    pass ignoreFactChanges fact (rule :: rest) = .error (.eval rule.name e) := by
  rw [pass, tried]

theorem pass_shut {gate : Option Bool} (tried : rule.condition fact = ⟨before, .ok gate⟩)
    (shut : gate ≠ some true) :
    pass ignoreFactChanges fact (rule :: rest) = pass ignoreFactChanges before rest := by
  rw [pass, tried]
  cases gate with
  | none => rfl
  | some isOpen =>
      cases isOpen with
      | false => rfl
      | true => exact absurd rfl shut

theorem pass_stuck {e : EvalError} (tried : rule.condition fact = ⟨before, .ok (some true)⟩)
    (done : rule.consequence before = ⟨after, .error e⟩) :
    pass ignoreFactChanges fact (rule :: rest) = .error (.eval rule.name e) := by
  simp only [pass, tried, done]

theorem pass_again {flow : Flow} (tried : rule.condition fact = ⟨before, .ok (some true)⟩)
    (done : rule.consequence before = ⟨after, .ok flow⟩)
    (again : wantsRestart ignoreFactChanges before after flow = true) :
    pass ignoreFactChanges fact (rule :: rest) = .ok ⟨after, [rule.name], true⟩ := by
  simp only [pass, tried, done, again, if_true]

theorem pass_stop (tried : rule.condition fact = ⟨before, .ok (some true)⟩)
    (done : rule.consequence before = ⟨after, .ok .stop⟩) :
    pass ignoreFactChanges fact (rule :: rest) = .ok ⟨after, [rule.name], false⟩ := by
  simp [pass, tried, done, wantsRestart]

theorem pass_next (tried : rule.condition fact = ⟨before, .ok (some true)⟩)
    (done : rule.consequence before = ⟨after, .ok .next⟩)
    (quiet : wantsRestart ignoreFactChanges before after .next = false) :
    pass ignoreFactChanges fact (rule :: rest) =
      (pass ignoreFactChanges after rest).map fun p =>
        { p with matched := rule.name :: p.matched } := by
  simp [pass, tried, done, quiet]

/-- What a pass can come to by its first rule. -/
inductive Head (ignoreFactChanges : Bool) (fact : Fact) (rule : Rule) (rest : List Rule) :
    Except ChainError Pass → Prop
  | failed {before : Fact} {e : EvalError} (tried : rule.condition fact = ⟨before, .error e⟩) :
      Head ignoreFactChanges fact rule rest (.error (.eval rule.name e))
  | shut {before : Fact} {gate : Option Bool} (tried : rule.condition fact = ⟨before, .ok gate⟩)
      (shut : gate ≠ some true) :
      Head ignoreFactChanges fact rule rest (pass ignoreFactChanges before rest)
  | stuck {before after : Fact} {e : EvalError}
      (tried : rule.condition fact = ⟨before, .ok (some true)⟩)
      (done : rule.consequence before = ⟨after, .error e⟩) :
      Head ignoreFactChanges fact rule rest (.error (.eval rule.name e))
  | again {before after : Fact} {flow : Flow}
      (tried : rule.condition fact = ⟨before, .ok (some true)⟩)
      (done : rule.consequence before = ⟨after, .ok flow⟩)
      (again : wantsRestart ignoreFactChanges before after flow = true) :
      Head ignoreFactChanges fact rule rest (.ok ⟨after, [rule.name], true⟩)
  | stop {before after : Fact} (tried : rule.condition fact = ⟨before, .ok (some true)⟩)
      (done : rule.consequence before = ⟨after, .ok .stop⟩) :
      Head ignoreFactChanges fact rule rest (.ok ⟨after, [rule.name], false⟩)
  | next {before after : Fact} (tried : rule.condition fact = ⟨before, .ok (some true)⟩)
      (done : rule.consequence before = ⟨after, .ok .next⟩)
      (quiet : wantsRestart ignoreFactChanges before after .next = false) :
      Head ignoreFactChanges fact rule rest ((pass ignoreFactChanges after rest).map fun p =>
        { p with matched := rule.name :: p.matched })

theorem head (ignoreFactChanges : Bool) (fact : Fact) (rule : Rule) (rest : List Rule) :
    Head ignoreFactChanges fact rule rest (pass ignoreFactChanges fact (rule :: rest)) := by
  cases tried : rule.condition fact with
  | mk before report =>
      cases report with
      | error e => exact pass_failed tried ▸ .failed tried
      | ok gate =>
          by_cases opened : gate = some true
          · subst opened
            cases done : rule.consequence before with
            | mk after report =>
                cases report with
                | error e => exact pass_stuck tried done ▸ .stuck tried done
                | ok flow =>
                    cases asks : wantsRestart ignoreFactChanges before after flow with
                    | true => exact pass_again tried done asks ▸ .again tried done asks
                    | false =>
                        cases flow with
                        | next => exact pass_next tried done asks ▸ .next tried done asks
                        | stop => exact pass_stop tried done ▸ .stop tried done
                        | restart => cases asks
          · exact pass_shut tried opened ▸ .shut tried opened

theorem run_of_pass_error {settings : EngineSettings} {rules : List Rule} {e : ChainError}
    (failed : pass settings.ignoreFactChanges fact rules = .error e) :
    run settings rules fact = .error e := by
  rw [run, passes, failed]

theorem run_of_pass_ok {settings : EngineSettings} {rules : List Rule} {matched : List String}
    (ended : pass settings.ignoreFactChanges fact rules = .ok ⟨after, matched, false⟩) :
    run settings rules fact = .ok ⟨after, matched⟩ := by
  rw [run, passes, ended]
  rfl

end Chain

end DecisionTable
