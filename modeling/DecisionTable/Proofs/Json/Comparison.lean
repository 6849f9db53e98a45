import DecisionTable.Formula.Evaluation
import Mathlib.Order.Defs.LinearOrder

/-! # Comparisons agree

Values of one kind are loosely equal if they are strictly equal, and values of two kinds if they
count as the same number (`looseEquals_eq`). The order of two values goes by the same numbers, but
for strings. So equality and order never contradict each other (`comparison_coherent`).
-/

namespace DecisionTable

namespace Binary64

theorem compare?_swap (x y : Binary64) : y.compare? x = (x.compare? y).map Ordering.swap := by
  cases x with
  | nan => cases y <;> rfl
  | infinite s => cases s <;> rcases y with _ | ⟨_ | _⟩ | _ <;> rfl
  | finite x =>
      rcases y with _ | ⟨_ | _⟩ | y
      · rfl
      · rfl
      · rfl
      · exact congrArg some Std.OrientedCmp.eq_swap

theorem same_comm (x y : Binary64) : y.same x = x.same y := by
  rw [same, same, compare?_swap x y]
  rcases x.compare? y with _ | _ | _ | _ <;> rfl

theorem same_of_compare? {x y : Binary64} {o : Ordering} (compared : x.compare? y = some o) :
    x.same y = (o == .eq) := by
  rw [same, compared]
  cases o <;> rfl

end Binary64

namespace Json

variable {a b : Json}

/-- Whether two values are of one kind. -/
def sameKind : Json → Json → Bool
  | null, null | bool _, bool _ | number _, number _ | string _, string _ | array _, array _
  | object _, object _ => true
  | _, _ => false

theorem sameKind_comm (a b : Json) : b.sameKind a = a.sameKind b := by
  cases a <;> cases b <;> rfl

theorem equivalent_comm (a b : Json) : b.equivalent a = a.equivalent b := by
  rw [equivalent, equivalent, Bool.eq_iff_iff, beq_iff_eq, beq_iff_eq, eq_comm]

theorem sameKind_of_equivalent (same : a.equivalent b = true) : a.sameKind b = true := by
  rw [equivalent, beq_iff_eq] at same
  cases a <;> cases b <;> first | rfl | simp [normal] at same

theorem strictEquals_comm (a b : Json) : b.strictEquals a = a.strictEquals b := by
  cases a with
  | number x =>
      cases b with
      | number y => exact Binary64.same_comm _ _
      | _ => exact equivalent_comm _ _
  | _ => cases b <;> exact equivalent_comm _ _

theorem sameKind_of_strictEquals (same : a.strictEquals b = true) : a.sameKind b = true := by
  cases a with
  | number x =>
      cases b with
      | number y => rfl
      | _ => exact sameKind_of_equivalent same
  | _ => cases b <;> exact sameKind_of_equivalent same

theorem sameNumber_comm (a b : Json) : b.sameNumber a = a.sameNumber b := by
  rw [sameNumber, sameNumber]
  cases a.toNumber? with
  | none => cases b.toNumber? <;> rfl
  | some x =>
      cases b.toNumber? with
      | none => rfl
      | some y => exact Binary64.same_comm x y

theorem sameNumber_of_compare? {x y : Binary64} {o : Ordering} (first : a.toNumber? = some x)
    (second : b.toNumber? = some y) (compared : x.compare? y = some o) :
    a.sameNumber b = (o == .eq) := by
  rw [sameNumber, first, second]
  exact Binary64.same_of_compare? compared

theorem sameNumber_of_none (none : a.toNumber? = none) (b : Json) : a.sameNumber b = false := by
  rw [sameNumber, none]

/-- Null and containers count as no number, so they equal nothing of another kind. -/
theorem looseEquals_eq (a b : Json) :
    a.looseEquals b = if a.sameKind b then a.strictEquals b else a.sameNumber b := by
  have none_left := @sameNumber_of_none a
  have none_right (none : b.toNumber? = none) :=
    (sameNumber_comm b a).trans (sameNumber_of_none none a)
  cases a <;> cases b <;>
    simp_all [looseEquals, sameKind, toNumber?, strictEquals, equivalent, normal]

theorem looseEquals_comm (a b : Json) : b.looseEquals a = a.looseEquals b := by
  rw [looseEquals_eq, looseEquals_eq, sameKind_comm, strictEquals_comm, sameNumber_comm]

theorem looseEquals_of_strictEquals (same : a.strictEquals b = true) : a.looseEquals b = true := by
  rw [looseEquals_eq, if_pos (sameKind_of_strictEquals same), same]

theorem compare?_numbers (other : ∀ s t, ¬(a = .string s ∧ b = .string t)) :
    a.compare? b = a.toNumber?.bind fun x => b.toNumber?.bind x.compare? := by
  unfold compare?
  split
  · exact absurd ⟨rfl, rfl⟩ (other _ _)
  · split
    · simp [*]
    · cases first : a.toNumber? <;> cases second : b.toNumber? <;> simp_all

theorem compare?_swap (a b : Json) : b.compare? a = (a.compare? b).map Ordering.swap := by
  -- Two strings go by their texts, all other values by their numbers.
  by_cases texts : ∃ s t, a = .string s ∧ b = .string t
  · obtain ⟨s, t, rfl, rfl⟩ := texts
    exact congrArg some Std.OrientedCmp.eq_swap
  · simp only [not_exists] at texts
    rw [compare?_numbers texts,
      compare?_numbers fun s t ⟨second, first⟩ => texts t s ⟨first, second⟩]
    cases a.toNumber? with
    | none => cases b.toNumber? <;> rfl
    | some x =>
        cases b.toNumber? with
        | none => rfl
        | some y => exact Binary64.compare?_swap x y

/-- Of values of one kind only truth values and numbers count as numbers. They are equal if the
    numbers are. -/
theorem strictEquals_of_compare? {x y : Binary64} {o : Ordering} (kinds : a.sameKind b = true)
    (other : ∀ s t, ¬(a = .string s ∧ b = .string t)) (first : a.toNumber? = some x)
    (second : b.toNumber? = some y) (compared : x.compare? y = some o) :
    a.strictEquals b = (o == .eq) := by
  rw [← sameNumber_of_compare? first second compared]
  cases a with
  | bool p =>
      cases b with
      | bool q => cases p <;> cases q <;> decide +kernel
      | _ => cases kinds
  | number m =>
      cases b with
      | number n => rfl
      | _ => cases kinds
  | string s =>
      cases b with
      | string t => exact absurd ⟨rfl, rfl⟩ (other s t)
      | _ => cases kinds
  | null | array | object => cases first

theorem looseEquals_of_compare? {o : Ordering} (compared : a.compare? b = some o) :
    a.looseEquals b = (o == .eq) := by
  by_cases texts : ∃ s t, a = .string s ∧ b = .string t
  · obtain ⟨s, t, rfl, rfl⟩ := texts
    obtain rfl : compare s t = o := Option.some.inj compared
    rw [Bool.eq_iff_iff]
    simp [looseEquals, strictEquals, equivalent, normal]
  · simp only [not_exists] at texts
    rw [compare?_numbers texts, Option.bind_eq_some_iff] at compared
    obtain ⟨x, first, compared⟩ := compared
    obtain ⟨y, second, compared⟩ := Option.bind_eq_some_iff.1 compared
    rw [looseEquals_eq]
    split
    · rename_i kinds
      exact strictEquals_of_compare? kinds texts first second compared
    · exact sameNumber_of_compare? first second compared

end Json

theorem Expression.eval_infixed {fact : Fact} {op : InfixOp} {left right : Expression} {a b : Json}
    (first : left.eval fact = .ok a) (second : right.eval fact = .ok b)
    (both : op.decided a = false) :
    (infixed op left right).eval fact = .ok (op.apply a b) := by
  rw [eval, first]
  simp only [bind, Except.bind, both, second]
  rfl

/-- Strict equality is loose equality of fewer values, neither depends on which value stands
    first, and the order is reversed if they are exchanged. Values that can be ordered are equal if
    neither comes first. So of two expressions with such values exactly one of `<`, `==` and `>`
    holds, and `<=` and `>=` hold if one of two of them does; of other values no order holds. -/
theorem Json.comparison_coherent (a b : Json) :
    (a.strictEquals b = true → a.looseEquals b = true) ∧
    b.strictEquals a = a.strictEquals b ∧ b.looseEquals a = a.looseEquals b ∧
    b.compare? a = (a.compare? b).map Ordering.swap ∧
    (∀ o, a.compare? b = some o → (o = .eq ↔ a.looseEquals b = true)) ∧
    ∀ fact left right, Expression.eval fact left = .ok a → Expression.eval fact right = .ok b →
      let compared op := (Expression.infixed op left right).eval fact
      (a.compare? b ≠ none → ∃ less equal greater : Bool,
        [less, equal, greater].count true = 1 ∧
        compared .less = .ok (.bool less) ∧ compared .equal = .ok (.bool equal) ∧
        compared .greater = .ok (.bool greater) ∧
        compared .lessEqual = .ok (.bool (less || equal)) ∧
        compared .greaterEqual = .ok (.bool (greater || equal))) ∧
      (a.compare? b = none → ∀ op ∈ [InfixOp.less, .lessEqual, .greater, .greaterEqual],
        compared op = .ok (.bool false)) := by
  refine ⟨looseEquals_of_strictEquals, strictEquals_comm a b, looseEquals_comm a b,
    compare?_swap a b, fun o ordered => ?_, fun fact left right first second => ?_⟩
  · rw [looseEquals_of_compare? ordered, beq_iff_eq]
  have value {op : InfixOp} {v : Bool} (both : op.decided a = false)
      (applied : op.apply a b = .bool v) :
      (Expression.infixed op left right).eval fact = .ok (.bool v) := by
    rw [Expression.eval_infixed first second both, applied]
  refine ⟨fun comparable => ?_, fun apart => ?_⟩
  · obtain ⟨o, ordered⟩ := Option.ne_none_iff_exists'.1 comparable
    have loose := looseEquals_of_compare? ordered
    refine ⟨o == .lt, o == .eq, o == .gt, by cases o <;> rfl, ?_⟩
    refine ⟨value rfl ?_, value rfl ?_, value rfl ?_, value rfl ?_, value rfl ?_⟩ <;>
      simp [InfixOp.apply, ordered, loose]
  · intro op listed
    simp only [List.mem_cons, List.not_mem_nil, or_false] at listed
    rcases listed with rfl | rfl | rfl | rfl <;>
      exact value rfl (by simp [InfixOp.apply, apart])

/-- A whole number that is no double, and a text that spells the double nearest to it. -/
theorem Json.comparison_coherent_rounded :
    let n : Json := .number (.integer 9007199254740993 (by decide))
    let text : Json := .string " 9007199254740992.0 "
    let fact : Fact := [("n", n)]
    let compared op := (Expression.infixed op (.field ⟨"n", []⟩) (.literal text)).eval fact
    n.strictEquals text = false ∧ n.compare? text = some .eq ∧ text.looseEquals n = true ∧
      text.compare? n = some .eq ∧
      ∃ less equal greater : Bool, [less, equal, greater].count true = 1 ∧
        compared .less = .ok (.bool less) ∧ compared .equal = .ok (.bool equal) ∧
        compared .greater = .ok (.bool greater) ∧
        compared .lessEqual = .ok (.bool (less || equal)) ∧
        compared .greaterEqual = .ok (.bool (greater || equal)) := by
  intro n text fact compared
  have ordered : n.compare? text = some .eq := by decide +kernel
  obtain ⟨-, -, loose, reversed, same, operators⟩ := comparison_coherent n text
  refine ⟨by decide +kernel, ordered, ?_, ?_, ?_⟩
  · rw [loose, ← same .eq ordered]
  · rw [reversed, ordered]
    rfl
  · exact (operators fact (.field ⟨"n", []⟩) (.literal text) rfl rfl).1 (ordered ▸ nofun)

end DecisionTable
