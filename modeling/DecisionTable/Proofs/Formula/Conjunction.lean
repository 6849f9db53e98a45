import DecisionTable.Proofs.Formula.Completeness
import DecisionTable.Rule.Basic

/-! # Conjunctions of expressions

Expressions that are joined by `&&` are one expression of the grammar, and it says what they say
together, if none of them has an `||` outside parentheses (`Derives.and`). How the conjuncts
are grouped makes no difference (`allHold_conjuncts`). An `||` outside parentheses would take
what is joined to it into its right side. Where it stands can be seen in the tokens alone
(`outside`).
-/

namespace DecisionTable

namespace Grammar

/-- Whether an operator stands outside parentheses, below some open ones. -/
def outside (op : InfixOp) : Nat → List Token → Bool
  | _, [] => false
  | depth, .openParen :: rest => outside op (depth + 1) rest
  | depth, .closeParen :: rest => outside op (depth - 1) rest
  | depth, .operator other :: rest => depth == 0 && other == op || outside op depth rest
  | depth, _ :: rest => outside op depth rest

theorem outside_operator {op other : InfixOp} {depth : Nat} (hidden : other ≠ op ∨ 0 < depth)
    (rest : List Token) :
    outside op depth (.operator other :: rest) = outside op depth rest := by
  have : (depth == 0 && other == op) = false := by
    simp only [Bool.and_eq_false_iff, beq_eq_false_iff_ne]
    exact hidden.symm.imp_left Nat.ne_of_gt
  rw [outside, this, Bool.false_or]

theorem Accesses.outside_append {tokens : List Token} {names : List String}
    (accesses : Accesses tokens names) (op : InfixOp) (depth : Nat) (rest : List Token) :
    outside op depth (tokens ++ rest) = outside op depth rest := by
  induction accesses with
  | nil => rfl
  | named _ ih => simpa [outside] using ih
  | keyed _ ih => simpa [outside] using ih
  | indexed _ _ ih => simpa [outside] using ih

theorem Accesses.outside_eq_false {tokens : List Token} {names : List String}
    (accesses : Accesses tokens names) (op : InfixOp) (depth : Nat) :
    outside op depth tokens = false := by
  rw [← List.append_nil tokens, accesses.outside_append]
  rfl

/-- An expression leaves open as many parentheses as it finds. -/
theorem Derives.outside_append {level : Nat} {tokens : List Token} {e : Expression}
    (d : Derives level tokens e) (op : InfixOp) (depth : Nat) (rest : List Token) :
    outside op depth (tokens ++ rest) = (outside op depth tokens || outside op depth rest) := by
  induction d generalizing depth rest with
  | tighter _ ih => exact ih depth rest
  | infixed _ _ _ ihl ihr =>
      rw [List.append_assoc, List.cons_append, ihl, ihl, outside, outside, ihr]
      simp only [Bool.or_assoc]
  | not _ ih => exact ih depth rest
  | opposite _ ih => rw [List.cons_append, outside, outside, ih, Bool.or_assoc]
  | negate _ _ ih => rw [List.cons_append, outside, outside, ih, Bool.or_assoc]
  | number => rfl
  | string => rfl
  | constant => rfl
  | this accesses =>
      simp only [List.cons_append, outside, accesses.outside_append, accesses.outside_eq_false,
        Bool.false_or]
  | path _ _ accesses =>
      simp only [List.cons_append, outside, accesses.outside_append, accesses.outside_eq_false,
        Bool.false_or]
  | parenthesized _ ih =>
      simp only [List.cons_append, List.append_assoc, List.nil_append, outside, ih,
        Nat.succ_sub_one, Bool.or_false]

/-- Inside parentheses, and at a tighter level, no `||` or `&&` stands outside. -/
theorem Derives.outside_eq_false {op : InfixOp} {level depth : Nat} {tokens : List Token}
    {e : Expression} (d : Derives level tokens e) (loose : op.precedence ≤ 2)
    (closed : op.precedence < level ∨ 0 < depth) : outside op depth tokens = false := by
  have minus : InfixOp.sub ≠ op := fun eq => by
    rw [← eq] at loose
    exact absurd loose (by decide)
  induction d generalizing depth with
  | tighter _ ih => exact ih (by omega)
  | @infixed level other _ _ _ _ belongs dl _ ihl ihr =>
      have differs : other ≠ op ∨ 0 < depth := by
        refine closed.imp_left fun tight eq => ?_
        rw [mem_operators_iff, eq] at belongs
        omega
      rw [dl.outside_append, ihl closed, outside_operator differs, ihr (by omega), Bool.false_or]
  | not _ ih => exact ih closed
  | opposite _ ih => rw [outside_operator (.inl minus), ih closed]
  | negate _ _ ih => rw [outside_operator (.inl minus), ih closed]
  | number => rfl
  | string => rfl
  | constant => rfl
  | this accesses => exact accesses.outside_eq_false op depth
  | path _ _ accesses => exact accesses.outside_eq_false op depth
  | parenthesized d ih =>
      rw [List.cons_append, outside, d.outside_append, ih (.inr (Nat.succ_pos depth))]
      rfl

/-- An expression is a conjunction, or it has an `||` outside parentheses. -/
theorem Derives.conjunction {tokens : List Token} {e : Expression} (d : Derives 1 tokens e)
    (closed : outside .or 0 tokens = false) : Derives 2 tokens e := by
  cases d with
  | tighter d => exact d
  | infixed belongs dl _ =>
      rw [List.mem_singleton.1 belongs, dl.outside_append] at closed
      simp [outside] at closed

end Grammar

namespace Expression

/-- The expressions that must hold for an expression to hold, from left to right. -/
def conjuncts : Expression → List Expression
  | .infixed .and left right => left.conjuncts ++ right.conjuncts
  | e => [e]

theorem eval_and (fact : Fact) (left right : Expression) :
    (infixed .and left right).eval fact =
      left.eval fact >>= fun a => if a.truthy then right.eval fact else .ok a := by
  rw [eval]
  cases left.eval fact with
  | error e => rfl
  | ok a =>
      cases truth : a.truthy with
      | false => simp [bind, Except.bind, InfixOp.decided, truth, pure, Except.pure]
      | true =>
          cases right.eval fact <;>
            simp [bind, Except.bind, InfixOp.decided, InfixOp.apply, truth, pure, Except.pure]

theorem holds_and (fact : Fact) (left right : Expression) :
    (infixed .and left right).holds fact =
      left.holds fact >>= fun held => if held then right.holds fact else .ok false := by
  rw [holds, eval_and, holds, holds]
  cases left.eval fact with
  | error e => rfl
  | ok a => cases truth : a.truthy <;> simp [bind, Except.bind, truth, pure, Except.pure]

theorem holds_or (fact : Fact) (left right : Expression) :
    (infixed .or left right).holds fact =
      left.holds fact >>= fun held => if held then .ok true else right.holds fact := by
  simp only [holds, eval]
  cases left.eval fact with
  | error e => rfl
  | ok a =>
      cases truth : a.truthy with
      | true => simp [bind, Except.bind, InfixOp.decided, truth, pure, Except.pure]
      | false =>
          cases right.eval fact <;>
            simp [bind, Except.bind, InfixOp.decided, InfixOp.apply, truth, pure, Except.pure]

end Expression

namespace Condition

theorem allHold_append (fact : Fact) (front behind : List Expression) :
    allHold fact (front ++ behind) =
      allHold fact front >>= fun held => if held then allHold fact behind else .ok false := by
  induction front with
  | nil => rfl
  | cons term front ih =>
      simp only [List.cons_append, allHold, ih]
      split <;> rfl

theorem allHold_singleton (fact : Fact) (term : Expression) :
    allHold fact [term] = term.holds fact := by
  rw [allHold]
  cases term.holds fact with
  | error e => rfl
  | ok held => cases held <;> rfl

/-- An expression holds when its conjuncts do, with the same error else. -/
theorem allHold_conjuncts (fact : Fact) (e : Expression) :
    allHold fact e.conjuncts = e.holds fact := by
  fun_induction Expression.conjuncts e with
  | case1 left right ihl ihr => rw [allHold_append, ihl, ihr, Expression.holds_and]
  | case2 e => exact allHold_singleton fact e

theorem allHold_flatMap_conjuncts (fact : Fact) (terms : List Expression) :
    allHold fact (terms.flatMap Expression.conjuncts) = allHold fact terms := by
  induction terms with
  | nil => rfl
  | cons term terms ih =>
      rw [List.flatMap_cons, allHold_append, allHold_conjuncts, ih, allHold]
      cases term.holds fact with
      | error e => rfl
      | ok held => cases held <;> rfl

end Condition

namespace Grammar

/-- Two conjunctions with `&&` between them are one, with the conjuncts of both. -/
theorem Derives.and {front behind : List Token} {left right : Expression}
    (dl : Derives 2 front left) (dr : Derives 2 behind right) :
    ∃ e, Derives 2 (front ++ .operator .and :: behind) e ∧
      e.conjuncts = left.conjuncts ++ right.conjuncts := by
  generalize two : 2 = level at dr
  induction dr with
  | tighter dr _ =>
      subst two
      exact ⟨_, .infixed (List.mem_singleton.2 rfl) dl dr, rfl⟩
  | @infixed _ _ _ _ _ right belongs dm dr ihm _ =>
      subst two
      rw [List.mem_singleton.1 belongs]
      obtain ⟨e, d, eq⟩ := ihm rfl
      refine ⟨.infixed .and e right, ?_, ?_⟩
      · rw [← List.cons_append, ← List.append_assoc]
        exact .infixed (List.mem_singleton.2 rfl) d dr
      · rw [Expression.conjuncts, eq, Expression.conjuncts, List.append_assoc]
  | _ => cases two

/-- The tokens say what some terms say together, part by part. -/
def Says (level : Nat) (parts : Expression → List Expression) (tokens : List Token)
    (terms : List Expression) : Prop :=
  tokens = [] ∧ terms = [] ∨ ∃ e, Derives level tokens e ∧ parts e = terms.flatMap parts

/-- Tokens say one thing, whatever terms they are made from. -/
theorem Says.unique {level : Nat} {parts : Expression → List Expression} {tokens : List Token}
    {terms terms' : List Expression} (said : Says level parts tokens terms)
    (said' : Says level parts tokens terms') : terms.flatMap parts = terms'.flatMap parts := by
  rcases said with ⟨rfl, rfl⟩ | ⟨e, d, eq⟩
  · rcases said' with ⟨-, rfl⟩ | ⟨e', d', -⟩
    · rfl
    · exact absurd rfl d'.ne_nil
  · rcases said' with ⟨rfl, -⟩ | ⟨e', d', eq'⟩
    · exact absurd rfl d.ne_nil
    · rw [← eq, ← eq', d.unique d']

theorem Says.one {level : Nat} {tokens : List Token} {e : Expression} (d : Derives level tokens e)
    (parts : Expression → List Expression) : Says level parts tokens [e] :=
  .inr ⟨e, d, by rw [List.flatMap_cons, List.flatMap_nil, List.append_nil]⟩

theorem Says.and {front behind : List Token} {term : Expression} {terms : List Expression}
    (d : Derives 2 front term) (said : Says 2 Expression.conjuncts behind terms)
    (some : behind ≠ []) :
    Says 2 Expression.conjuncts (front ++ .operator .and :: behind) (term :: terms) := by
  rcases said with ⟨rfl, -⟩ | ⟨e, d', eq⟩
  · exact absurd rfl some
  · obtain ⟨whole, d'', eq'⟩ := d.and d'
    exact .inr ⟨whole, d'', by rw [eq', eq, List.flatMap_cons]⟩

end Grammar

end DecisionTable
