import DecisionTable.Proofs.Formula.Conjunction

/-! # Groupings of a conjunction

Some terms can be joined by `&&` in as many ways as parentheses can be put around them. All these
expressions have one value, that of the first term which counts as false or else of the last one,
and fail together, since each of them evaluates the terms from the left and stops at the same one
(`Groups.eval_eq`). A condition, which tests its terms one by one, holds just if they count as true.
-/

namespace DecisionTable

namespace Expression

/-- `Groups terms e`: with some grouping, `e` is the terms in their order with `&&` between them. -/
inductive Groups : List Expression → Expression → Prop where
  | term (e : Expression) : Groups [e] e
  | both {front behind : List Expression} {left right : Expression} (first : Groups front left)
      (second : Groups behind right) : Groups (front ++ behind) (.infixed .and left right)

/-- The value of the first of some terms that counts as false, or else of the last one. Terms behind
    one that counts as false are not evaluated. -/
def conjunction (fact : Fact) : List Expression → Except EvalError Json
  | [] => .ok (.bool true)
  | [term] => term.eval fact
  | term :: rest => do
    let a ← term.eval fact
    if a.truthy then conjunction fact rest else return a

variable {terms : List Expression} {e e' : Expression}

theorem conjunction_cons (fact : Fact) (term : Expression) (some : terms ≠ []) :
    conjunction fact (term :: terms) =
      term.eval fact >>= fun a => if a.truthy then conjunction fact terms else .ok a := by
  cases terms with
  | nil => exact absurd rfl some
  | cons => rfl

theorem conjunction_append (fact : Fact) {front behind : List Expression} (some : front ≠ [])
    (some' : behind ≠ []) :
    conjunction fact (front ++ behind) =
      conjunction fact front >>= fun a =>
        if a.truthy then conjunction fact behind else .ok a := by
  induction front with
  | nil => exact absurd rfl some
  | cons term front ih =>
      rw [List.cons_append, conjunction_cons fact term (by simp [some'])]
      cases front with
      | nil => rfl
      | cons next front =>
          rw [ih (by simp), conjunction_cons fact term (by simp)]
          cases term.eval fact with
          | error failed => rfl
          | ok a => cases truth : a.truthy <;> simp [bind, Except.bind, truth]

namespace Groups

theorem ne_nil (groups : Groups terms e) : terms ≠ [] := by
  induction groups with
  | term => simp
  | both _ _ ih _ => simp [ih]

/-- The value does not depend on the grouping. -/
theorem eval_eq (groups : Groups terms e) (fact : Fact) :
    e.eval fact = conjunction fact terms := by
  induction groups with
  | term => rfl
  | both first second ihl ihr =>
      rw [eval_and, ihl, ihr, conjunction_append fact first.ne_nil second.ne_nil]

theorem holds_eq (groups : Groups terms e) (fact : Fact) :
    e.holds fact = Condition.allHold fact terms := by
  induction groups with
  | term e => exact (Condition.allHold_singleton fact e).symm
  | both _ _ ihl ihr => rw [holds_and, ihl, ihr, Condition.allHold_append]

end Groups

/-- Terms can be grouped if there are any. -/
theorem exists_groups_iff : (∃ e, Groups terms e) ↔ terms ≠ [] := by
  constructor
  · rintro ⟨e, groups⟩
    exact groups.ne_nil
  · intro some
    induction terms with
    | nil => exact absurd rfl some
    | cons term terms ih =>
        cases terms with
        | nil => exact ⟨term, .term term⟩
        | cons next terms =>
            obtain ⟨e, groups⟩ := ih (by simp)
            exact ⟨_, .both (.term term) groups⟩

end Expression

open Expression in
/-- A condition holds, or fails with an error, just as its terms do when they are joined to one
    expression, and two groupings of them have the same value or error. -/
theorem Condition.holds_grouped {c : Condition} {e e' : Expression} (groups : Groups c.terms e)
    (groups' : Groups c.terms e') (fact : Fact) :
    c.holds fact = e.holds fact ∧ e.eval fact = e'.eval fact :=
  ⟨(groups.holds_eq fact).symm, (groups.eval_eq fact).trans (groups'.eval_eq fact).symm⟩

open Expression in
/-- The second term decides, and the third one, which would fail, is not evaluated. -/
theorem Condition.holds_grouped_failing :
    let name := field ⟨"name", []⟩
    let zero := literal (.ofNat 0)
    let gone := field ⟨"gone", ["deep"]⟩
    let c : Condition := ⟨"this.name && 0 && this.gone.deep", [name, zero, gone]⟩
    let left := infixed .and (infixed .and name zero) gone
    let right := infixed .and name (infixed .and zero gone)
    let fact : Fact := [("name", .string "ann")]
    Groups c.terms left ∧ Groups c.terms right ∧ left ≠ right ∧
      (c.holds fact = left.holds fact ∧ left.eval fact = right.eval fact) ∧
      (left.eval fact).toOption = some (.ofNat 0) := by
  intro name zero gone c left right fact
  have leftmost : Groups ([name] ++ [zero] ++ [gone]) left :=
    .both (.both (.term name) (.term zero)) (.term gone)
  have rightmost : Groups ([name] ++ ([zero] ++ [gone])) right :=
    .both (.term name) (.both (.term zero) (.term gone))
  have agree := Condition.holds_grouped (c := c) leftmost rightmost fact
  exact ⟨leftmost, rightmost, by decide, agree, by decide⟩

end DecisionTable
