import DecisionTable.Proofs.Chaining.FirstMatch
import DecisionTable.Proofs.Formula.Fields

/-! # Rules and the fields that they mention

Rules work on a part of the fact, the fields that their formulas mention. What stands in the
other fields makes no difference to a run, and a run makes none to it (`run_confined`).
-/

namespace DecisionTable

open Members (AgreeOn)

/-- The fields that a rule mentions in its terms and statements. -/
def CompiledRule.fields (r : CompiledRule) : List String :=
  r.condition.terms.flatMap Expression.fields ++
    r.consequence.statements.flatMap Statement.fields

/-- The fields that some rules mention. -/
def RuleSet.fields (rules : RuleSet) : List String := rules.flatMap CompiledRule.fields

theorem RuleSet.fields_subset {rules : RuleSet} {r : CompiledRule} (mem : r ∈ rules) :
    r.fields ⊆ rules.fields := fun _ mentioned => List.mem_flatMap.2 ⟨r, mem, mentioned⟩

namespace Condition

theorem allHold_eq {terms : List Expression} {fact other : Fact}
    (agree : AgreeOn (terms.flatMap Expression.fields) fact other) :
    allHold fact terms = allHold other terms := by
  induction terms with
  | nil => rfl
  | cons term terms ih =>
      have first : term.holds fact = term.holds other :=
        term.holds_eq fun key mem => agree key (by simp [mem])
      rw [allHold, allHold, first, ih fun key mem => agree key (List.mem_append_right _ mem)]

end Condition

namespace Consequence

/-- Statements end alike in facts that agree, and leave facts that agree also where they fail. -/
theorem runAll_alike {statements : List Statement} {keys : List String} {fact other : Fact}
    (mentioned : statements.flatMap Statement.fields ⊆ keys) (agree : AgreeOn keys fact other) :
    (runAll fact statements).report = (runAll other statements).report ∧
      AgreeOn keys (runAll fact statements).fact (runAll other statements).fact := by
  induction statements generalizing fact other with
  | nil => exact ⟨rfl, agree⟩
  | cons s statements ih =>
      obtain ⟨own, others⟩ := List.append_subset.1 mentioned
      have first := s.run_alike own agree
      rw [runAll, runAll]
      generalize s.run fact = after at first
      generalize s.run other = after' at first
      cases first with
      | error same => exact ⟨congrArg Except.error same, agree⟩
      | ok agree => exact ih others agree

theorem get?_runAll {statements : List Statement} {key : String}
    (other : key ∉ statements.flatMap Statement.fields) (fact : Fact) :
    Members.get? key (runAll fact statements).fact = Members.get? key fact := by
  induction statements generalizing fact with
  | nil => rfl
  | cons s statements ih =>
      rw [List.flatMap_cons, List.mem_append, not_or] at other
      rw [runAll]
      cases done : s.run fact with
      | error e => rfl
      | ok after => exact (ih other.2 after).trans (s.get?_run other.1 done)

end Consequence

/-- Two facts and what has become of them: the new facts agree on some fields, and are as the old
    ones in all others. -/
structure Confined (fields : List String) (fact other after after' : Fact) : Prop where
  agree : AgreeOn fields after after'
  kept : ∀ key, key ∉ fields → Members.get? key after = Members.get? key fact
  kept' : ∀ key, key ∉ fields → Members.get? key after' = Members.get? key other

namespace CompiledRule

variable {r : CompiledRule} {fields : List String} {fact other : Fact}

theorem condition_eq (mentioned : r.fields ⊆ fields) (agree : AgreeOn fields fact other) :
    r.condition.holds fact = r.condition.holds other :=
  Condition.allHold_eq fun key mem => agree key (mentioned (List.mem_append_left _ mem))

theorem consequence_confined (mentioned : r.fields ⊆ fields) (agree : AgreeOn fields fact other) :
    (r.consequence.apply fact).report = (r.consequence.apply other).report ∧
      Confined fields fact other (r.consequence.apply fact).fact
        (r.consequence.apply other).fact := by
  have statements : r.consequence.statements.flatMap Statement.fields ⊆ fields :=
    fun key mem => mentioned (List.mem_append_right _ mem)
  obtain ⟨report, agree⟩ := Consequence.runAll_alike statements agree
  exact ⟨report, agree, fun key off => Consequence.get?_runAll (fun mem => off (statements mem)) _,
    fun key off => Consequence.get?_runAll (fun mem => off (statements mem)) _⟩

end CompiledRule

/-- In facts that agree on what is mentioned the same rule decides. -/
theorem FirstMatch.confined {rules : RuleSet} {fact other : Fact}
    {result : Except ChainError Execution} (agree : AgreeOn rules.fields fact other)
    (h : FirstMatch fact rules result) :
    ∃ result', FirstMatch other rules result' ∧
      Alike (· = ·)
        (fun e e' => e.matchPath = e'.matchPath ∧
          Confined rules.fields fact other e.fact e'.fact) result result' := by
  have holds (r : CompiledRule) (mem : r ∈ rules) :
      r.condition.holds fact = r.condition.holds other :=
    r.condition_eq (RuleSet.fields_subset mem) agree
  have applied (r : CompiledRule) (mem : r ∈ rules) :=
    r.consequence_confined (RuleSet.fields_subset mem) agree
  cases h with
  | unmatched shut =>
      exact ⟨_, .unmatched fun r mem => holds r mem ▸ shut r mem,
        .ok ⟨rfl, agree, fun _ _ => rfl, fun _ _ => rfl⟩⟩
  | @failed before after r e shut tried =>
      have shut' (q) (mem : q ∈ before) := holds q (List.mem_append_left _ mem) ▸ shut q mem
      exact ⟨_, .failed shut' (holds r (by simp) ▸ tried), .error rfl⟩
  | @stuck before after r left e shut tried done =>
      have shut' (q) (mem : q ∈ before) := holds q (List.mem_append_left _ mem) ▸ shut q mem
      obtain ⟨report, -⟩ := applied r (by simp)
      cases done' : r.consequence.apply other with
      | mk left' report' =>
          rw [done, done'] at report
          subst report
          exact ⟨_, .stuck shut' (holds r (by simp) ▸ tried) done', .error rfl⟩
  | @matched before after r changed shut tried done =>
      have shut' (q) (mem : q ∈ before) := holds q (List.mem_append_left _ mem) ▸ shut q mem
      obtain ⟨report, confined⟩ := applied r (by simp)
      cases done' : r.consequence.apply other with
      | mk changed' report' =>
          rw [done, done'] at report confined
          subst report
          exact ⟨_, .matched shut' (holds r (by simp) ▸ tried) done', .ok ⟨rfl, confined⟩⟩

/-- On facts that agree on the fields that some rules mention, the rules end with the same error,
    or match the same rules and leave facts that agree on these fields. All other fields they
    leave as they were in each fact. -/
theorem RuleSet.run_confined {rules : RuleSet} {fact other : Fact}
    (agree : AgreeOn rules.fields fact other) (settings : EngineSettings) :
    Alike (· = ·)
      (fun e e' => e.matchPath = e'.matchPath ∧
        Confined rules.fields fact other e.fact e'.fact)
      (Chain.run settings (rules.map CompiledRule.toRule) fact)
      (Chain.run settings (rules.map CompiledRule.toRule) other) := by
  obtain ⟨result, h⟩ := FirstMatch.exists_result fact rules
  obtain ⟨result', h', alike⟩ := h.confined agree
  rw [h.run_eq settings, h'.run_eq settings]
  exact alike

theorem RuleSet.run_confined_nested :
    let hundred : Json := .number (.integer 100 (by decide))
    let rules : RuleSet :=
      [⟨"big", ⟨"this.amount >= 100 && this.customer.gold",
          [.infixed .greaterEqual (.field ⟨"amount", []⟩) (.literal hundred),
            .field ⟨"customer", ["gold"]⟩]⟩,
        ⟨"this.customer.note = this.notes[1]",
          [.assign ⟨"customer", ["note"]⟩ (.field ⟨"notes", ["1"]⟩)]⟩⟩]
    let fact : Fact := [("id", .string "a"), ("amount", hundred),
      ("customer", .object [("gold", .bool true)]), ("notes", .array [.null, .string "b"])]
    let other : Fact := [("notes", .array [.null, .string "b"]), ("trace", .object []),
      ("customer", .object [("gold", .bool true)]), ("amount", hundred)]
    AgreeOn rules.fields fact other ∧ Members.get? "id" fact ≠ Members.get? "id" other ∧
      (Chain.run {} (rules.map CompiledRule.toRule) fact).toOption.map (·.fact) ≠ some fact ∧
      Alike (· = ·)
        (fun e e' => e.matchPath = e'.matchPath ∧
          Confined rules.fields fact other e.fact e'.fact)
        (Chain.run {} (rules.map CompiledRule.toRule) fact)
        (Chain.run {} (rules.map CompiledRule.toRule) other) := by
  intro hundred rules fact other
  have agree : AgreeOn rules.fields fact other := by decide +kernel
  exact ⟨agree, by decide +kernel, by decide +kernel, RuleSet.run_confined agree {}⟩

end DecisionTable
