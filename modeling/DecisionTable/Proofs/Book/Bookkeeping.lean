import DecisionTable.Book.Basic
import DecisionTable.Proofs.Chaining.Confinement
import DecisionTable.Proofs.Formula.Assignment

/-! # The members that an answer adds

An answer has the members of the last fact and behind them two of its own, which tell the matched
rules and the digest. What the fact had under their names is dropped, so no name comes twice, and
where no rule mentions them it makes no difference to the answer (`RuleBook.decide_bookkeeping`).
-/

namespace DecisionTable

open Members (AgreeOn)

theorem Members.agreeOn_erase {keys : List String} {key : String} (other : key ∉ keys)
    (members : Members) : AgreeOn keys (erase key members) members := by
  intro key' mem
  have differ : key ≠ key' := fun same => other (same ▸ mem)
  rw [get?_erase, if_neg differ]

/-! ## Runs without a member that no rule mentions -/

section Unmentioned

variable {key : String} {fact : Fact}

theorem FieldPath.assign_erase {path : FieldPath} (differ : path.first ≠ key) (value : Json)
    (fact : Fact) :
    path.assign value (Members.erase key fact) =
      (path.assign value fact).map (Members.erase key) := by
  obtain ⟨first, rest⟩ := path
  cases rest with
  | nil => exact congrArg Except.ok (Members.erase_insert differ value fact).symm
  | cons next rest =>
      have same : Members.get? first (Members.erase key fact) = Members.get? first fact := by
        rw [Members.get?_erase, if_neg (Ne.symm differ)]
      simp only [assign, assignFrom, same]
      split
      case h_1 inner found =>
        cases assignFrom ([] ++ [first]) value next rest inner with
        | error e => rfl
        | ok after => exact congrArg Except.ok (Members.erase_insert differ _ fact).symm
      all_goals rfl

theorem Statement.run_erase {s : Statement} (unmentioned : key ∉ s.fields) (fact : Fact) :
    s.run (Members.erase key fact) = (s.run fact).map (Members.erase key) := by
  cases s with
  | assign target value =>
      obtain ⟨differ, absent⟩ := List.ne_and_not_mem_of_not_mem_cons unmentioned
      rw [run, run, value.eval_eq (Members.agreeOn_erase absent fact)]
      cases value.eval fact with
      | error e => rfl
      | ok v => exact FieldPath.assign_erase (Ne.symm differ) v fact
  | bare e =>
      rw [run, run, e.eval_eq (Members.agreeOn_erase unmentioned fact)]
      cases e.eval fact <;> rfl

theorem Consequence.runAll_erase {statements : List Statement}
    (unmentioned : key ∉ statements.flatMap Statement.fields) (fact : Fact) :
    runAll (Members.erase key fact) statements =
      ⟨Members.erase key (runAll fact statements).fact, (runAll fact statements).report⟩ := by
  induction statements generalizing fact with
  | nil => rfl
  | cons s statements ih =>
      rw [List.flatMap_cons, List.mem_append, not_or] at unmentioned
      rw [runAll, runAll, s.run_erase unmentioned.1]
      cases s.run fact with
      | error e => rfl
      | ok after => exact ih unmentioned.2 after

/-- The same rule decides, and leaves the same fact without the member. -/
theorem FirstMatch.erase {rules : RuleSet} {result : Except ChainError Execution}
    (unmentioned : key ∉ rules.fields) (h : FirstMatch fact rules result) :
    FirstMatch (Members.erase key fact) rules
      (result.map fun e => { e with fact := Members.erase key e.fact }) := by
  have holds (r : CompiledRule) (mem : r ∈ rules) :
      r.condition.holds (Members.erase key fact) = r.condition.holds fact :=
    r.condition_eq (RuleSet.fields_subset mem) (Members.agreeOn_erase unmentioned fact)
  have applied (r : CompiledRule) (mem : r ∈ rules) :
      r.consequence.apply (Members.erase key fact) = ⟨Members.erase key
        (r.consequence.apply fact).fact, (r.consequence.apply fact).report⟩ :=
    Consequence.runAll_erase (fun mentioned => unmentioned
      (RuleSet.fields_subset mem (List.mem_append_right _ mentioned))) fact
  cases h with
  | unmatched shut => exact .unmatched fun r mem => (holds r mem).trans (shut r mem)
  | @failed before after r e shut tried =>
      exact .failed (fun q mem => (holds q (by simp [mem])).trans (shut q mem))
        ((holds r (by simp)).trans tried)
  | @stuck before after r left e shut tried done =>
      exact .stuck (fun q mem => (holds q (by simp [mem])).trans (shut q mem))
        ((holds r (by simp)).trans tried) (by rw [applied r (by simp), done])
  | @matched before after r changed shut tried done =>
      exact .matched (fun q mem => (holds q (by simp [mem])).trans (shut q mem))
        ((holds r (by simp)).trans tried) (by rw [applied r (by simp), done])

theorem RuleSet.run_erase {rules : RuleSet} (unmentioned : key ∉ rules.fields) (fact : Fact)
    (settings : EngineSettings) :
    Chain.run settings (rules.map CompiledRule.toRule) (Members.erase key fact) =
      (Chain.run settings (rules.map CompiledRule.toRule) fact).map fun e =>
        { e with fact := Members.erase key e.fact } := by
  obtain ⟨result, h⟩ := FirstMatch.exists_result fact rules
  rw [h.run_eq settings, (h.erase unmentioned).run_eq settings]

end Unmentioned

/-! ## Names that come once -/

section Distinct

variable {fact after : Fact}

theorem FieldPath.nodup_assign {path : FieldPath} {value : Json}
    (distinct : (Members.keys fact).Nodup) (assigned : path.assign value fact = .ok after) :
    (Members.keys after).Nodup := by
  obtain ⟨first, rest⟩ := path
  cases assign_eq_ok_iff.1 assigned with
  | last => exact Members.nodup_keys_insert distinct _ _
  | inside => exact Members.nodup_keys_insert distinct _ _

theorem Statement.nodup_run {s : Statement} (distinct : (Members.keys fact).Nodup)
    (ran : s.run fact = .ok after) : (Members.keys after).Nodup := by
  cases s with
  | assign target value =>
      obtain ⟨v, -, assigned⟩ := Parser.bind_eq_ok.1 ran
      exact FieldPath.nodup_assign distinct assigned
  | bare e =>
      obtain ⟨v, -, same⟩ := Parser.bind_eq_ok.1 ran
      cases same
      exact distinct

theorem Consequence.nodup_runAll (statements : List Statement)
    (distinct : (Members.keys fact).Nodup) :
    (Members.keys (runAll fact statements).fact).Nodup := by
  induction statements generalizing fact with
  | nil => exact distinct
  | cons s statements ih =>
      rw [runAll]
      cases ran : s.run fact with
      | error e => exact distinct
      | ok after => exact ih (s.nodup_run distinct ran)

theorem RuleSet.nodup_run {rules : RuleSet} {settings : EngineSettings} {e : Execution}
    (distinct : (Members.keys fact).Nodup)
    (ran : Chain.run settings (rules.map CompiledRule.toRule) fact = .ok e) :
    (Members.keys e.fact).Nodup := by
  obtain ⟨result, h⟩ := FirstMatch.exists_result fact rules
  rw [h.run_eq settings] at ran
  subst ran
  cases h with
  | unmatched => exact distinct
  | @matched _ _ r _ _ _ done =>
      have kept := Consequence.nodup_runAll r.consequence.statements distinct
      rw [Consequence.apply] at done
      rwa [done] at kept

end Distinct

/-! ## The answer -/

/-- The names of the members that an answer adds. -/
def Decision.ownKeys : List String := ["rulesExecuted", "rulesETag"]

/-- The members of a fact whose names an answer does not use itself. -/
def Decision.foreign (fact : Fact) : Members := fact.filter (·.1 ∉ ownKeys)

theorem Decision.erase_ownKeys (fact : Fact) :
    Members.erase "rulesETag" (Members.erase "rulesExecuted" fact) = foreign fact := by
  rw [Members.erase, Members.erase, List.filter_filter, foreign]
  refine List.filter_congr fun member _ => ?_
  rw [Bool.eq_iff_iff]
  simp [ownKeys, and_comm]

theorem Decision.keys_append {own : Members} (fact : Fact) (named : own.keys = ownKeys) :
    Members.keys (foreign fact ++ own) = (Members.keys fact).filter (· ∉ ownKeys) ++ ownKeys := by
  have kept : (foreign fact).map Prod.fst = (Members.keys fact).filter (· ∉ ownKeys) := by
    rw [foreign, Members.keys, List.filter_map]
    rfl
  rw [Members.keys, List.map_append, kept]
  exact congrArg _ named

theorem Decision.count_names {key : String} (own : key ∈ ownKeys) (names : List String) :
    (names.filter (· ∉ ownKeys) ++ ownKeys).count key = 1 := by
  have absent : key ∉ names.filter (· ∉ ownKeys) := by simp [own]
  have once : ownKeys.Nodup := by decide
  rw [List.count_append, List.count_eq_zero.2 absent, Nat.zero_add, once.count, if_pos own]

theorem Decision.nodup_names {names : List String} (distinct : names.Nodup) :
    (names.filter (· ∉ ownKeys) ++ ownKeys).Nodup := by
  refine List.nodup_append.2 ⟨distinct.filter _, by decide, fun key mem key' own same => ?_⟩
  simp [same, own] at mem

theorem Decision.foreign_erase {key : String} (own : key ∈ ownKeys) (fact : Fact) :
    foreign (Members.erase key fact) = foreign fact := by
  rw [foreign, foreign, Members.erase, List.filter_filter]
  refine List.filter_congr fun member _ => ?_
  by_cases same : member.1 = key <;> simp [same, own]

namespace RuleBook

theorem decide_eq_foreign (book : RuleBook) (fact : Fact) :
    book.decide fact =
      (Chain.run book.settings (book.shelf.rules.map CompiledRule.toRule) fact).map fun e =>
        ⟨Decision.foreign e.fact, e.matchPath, book.shelf.etag⟩ := by
  simp only [decide, Decision.erase_ownKeys]

theorem decide_erase {book : RuleBook} {key : String} (own : key ∈ Decision.ownKeys)
    (unmentioned : key ∉ book.shelf.rules.fields) (fact : Fact) :
    book.decide (Members.erase key fact) = book.decide fact := by
  rw [decide_eq_foreign, decide_eq_foreign, RuleSet.run_erase unmentioned]
  cases Chain.run book.settings (book.shelf.rules.map CompiledRule.toRule) fact with
  | error e => rfl
  | ok e => simp [Except.map, Decision.foreign_erase own]

/-- An answer is an object of the members of the last fact in their order, without those that have
    the two names of the answer, and then the matched rules and the digest under these names. Each
    of the two names comes once, whatever the fact had there, and if the names of the fact that was
    asked about were distinct, all names are. If no rule mentions the two names, the answer is the
    same for the fact without them. -/
theorem decide_bookkeeping (book : RuleBook) (fact : Fact) :
    (∀ d, book.decide fact = .ok d → ∃ e members,
      Chain.run book.settings (book.shelf.rules.map CompiledRule.toRule) fact = .ok e ∧
      d.toJson = .object members ∧
      members = e.fact.filter (·.1 ∉ Decision.ownKeys) ++
        [("rulesExecuted", .array (e.matchPath.map .string)),
          ("rulesETag", .string book.etag)] ∧
      Members.keys members =
        (Members.keys e.fact).filter (· ∉ Decision.ownKeys) ++ Decision.ownKeys ∧
      (∀ key ∈ Decision.ownKeys, (Members.keys members).count key = 1) ∧
      ((Members.keys fact).Nodup → (Members.keys members).Nodup)) ∧
    ((∀ key ∈ Decision.ownKeys, key ∉ book.shelf.rules.fields) →
      book.decide (Members.erase "rulesETag" (Members.erase "rulesExecuted" fact)) =
        book.decide fact) := by
  constructor
  · intro d decided
    rw [decide_eq_foreign] at decided
    obtain ⟨e, ran, rfl⟩ := Parser.map_eq_ok.1 decided
    let own : Members :=
      [("rulesExecuted", .array (e.matchPath.map .string)), ("rulesETag", .string book.etag)]
    have keys := @Decision.keys_append own e.fact rfl
    refine ⟨e, _, ran, rfl, rfl, keys, fun key own => ?_, fun distinct => ?_⟩
    · exact (congrArg (List.count key) keys).trans (Decision.count_names own _)
    · exact keys ▸ Decision.nodup_names (RuleSet.nodup_run distinct ran)
  · intro unmentioned
    rw [decide_erase (by simp [Decision.ownKeys]) (unmentioned _ (by simp [Decision.ownKeys])),
      decide_erase (by simp [Decision.ownKeys]) (unmentioned _ (by simp [Decision.ownKeys]))]

end RuleBook

end DecisionTable
