import DecisionTable.Formula.Evaluation
import DecisionTable.Proofs.Alike
import DecisionTable.Proofs.Formula.Nesting
import Mathlib.Data.List.Forall2

/-! # Folded literals

The parser makes one literal of a minus and the number literal behind it. A parser that keeps the
minus accepts the same texts, with the same errors for all others, since nothing but the tree
depends on what a prefix operator makes of its operand. The two trees are related from the leaves
up by `Expression.Folds`, and such trees have the same value or error in each fact.
-/

namespace DecisionTable

open DecisionTable.Parser

/-- `Folds e e'`: from the leaves up, `e'` has a literal wherever `e` has a minus before what has
    become a number literal. -/
inductive Expression.Folds : Expression → Expression → Prop where
  | literal (value : Json) : Folds (.literal value) (.literal value)
  | field (path : FieldPath) : Folds (.field path) (.field path)
  | prefixed (op : PrefixOp) {e e' : Expression} (operand : Folds e e') :
      Folds (.prefixed op e) (Prefixing.folding op e')
  | infixed (op : InfixOp) {left left' right right' : Expression} (first : Folds left left')
      (second : Folds right right') : Folds (.infixed op left right) (.infixed op left' right')

/-- `Folds` for the expression of a statement. The target is the same. -/
inductive Statement.Folds : Statement → Statement → Prop where
  | assign (target : FieldPath) {value value' : Expression} (folds : value.Folds value') :
      Folds (.assign target value) (.assign target value')
  | bare {e e' : Expression} (folds : e.Folds e') : Folds (.bare e) (.bare e')

namespace Expression

variable {e e' : Expression}

/-- The literal that a minus is folded into has the value that the minus would have. -/
theorem eval_folding (op : PrefixOp) (e : Expression) (fact : Fact) :
    (Prefixing.folding op e).eval fact = (prefixed op e).eval fact := by
  unfold Prefixing.folding
  split
  · rfl
  · rfl

theorem Folds.eval_eq (folds : Folds e e') (fact : Fact) : e.eval fact = e'.eval fact := by
  induction folds with
  | literal | field => rfl
  | prefixed op _ ih => rw [eval_folding, eval, eval, ih]
  | infixed op _ _ ihl ihr => rw [eval, eval, ihl, ihr]

theorem folds_of_height (low : e.height = 0) : Folds e e := by
  cases e with
  | literal value => exact .literal value
  | field path => exact .field path
  | prefixed | infixed => simp [height] at low

/-- Folding makes no field and loses none. -/
theorem Folds.field_iff (folds : Folds e e') (path : FieldPath) :
    e' = .field path ↔ e = .field path := by
  cases folds with
  | literal | field | infixed => simp
  | prefixed op _ =>
      unfold Prefixing.folding
      split <;> simp

end Expression

namespace Parser

/-- Two parsed parts that `R` relates, with the same tokens behind them. -/
def Parsed.Related {α : Type} (R : α → α → Prop) (p q : Parsed α) : Prop := R p.1 q.1 ∧ p.2 = q.2

/-- Tokens start with a prefix operator or with a parenthesis, or they are an operand without
    operators for every parser. -/
theorem operand_cases (tokens : List Located) :
    (∃ op behind, prefixOp? tokens = some (op, behind)) ∨
      (∃ offset behind, tokens = ⟨.openParen, offset⟩ :: behind) ∨
      ∀ prefixing room, operand prefixing room tokens = atom tokens := by
  cases found : prefixOp? tokens with
  | some next => exact .inl ⟨next.1, next.2, rfl⟩
  | none =>
      refine .inr ?_
      cases tokens with
      | nil => exact .inr fun prefixing room => by unfold operand; rfl
      | cons t behind =>
          by_cases opens : t.token = .openParen
          · exact .inl ⟨t.offset, behind, by rw [← opens]⟩
          · exact .inr fun prefixing room => operand_atom found opens

/-- With some room, both parsers do the same up to folding. -/
structure FoldsWithin (room : Nat) : Prop where
  operand : ∀ tokens, Alike (· = ·) (Parsed.Related Expression.Folds)
    (operand .plain room tokens) (operand .folding room tokens)
  climb : ∀ {left left' : Expression}, left.Folds left' → ∀ least tokens,
    Alike (· = ·) (Parsed.Related Expression.Folds)
      (climb .plain room least left tokens) (climb .folding room least left' tokens)

namespace FoldsWithin

variable {room : Nat}

theorem chain (within : FoldsWithin room) (least : Nat) (tokens : List Located) :
    Alike (· = ·) (Parsed.Related Expression.Folds)
      (chain .plain room least tokens) (chain .folding room least tokens) := by
  refine (within.operand tokens).bind ?_
  rintro ⟨first, rest⟩ ⟨first', _⟩ ⟨folds, rfl⟩
  exact within.climb folds least rest

theorem atom (tokens : List Located) :
    Alike (· = ·) (Parsed.Related Expression.Folds) (atom tokens) (atom tokens) := by
  cases read : Parser.atom tokens with
  | error e => exact .error rfl
  | ok parsed => exact .ok ⟨Expression.folds_of_height (atom_height read), rfl⟩

theorem zero : FoldsWithin 0 where
  operand tokens := by
    rcases operand_cases tokens with ⟨op, behind, found⟩ | ⟨offset, behind, rfl⟩ | same
    · rw [operand_prefixed_zero found, operand_prefixed_zero found]
      exact .error rfl
    · rw [operand_openParen_zero, operand_openParen_zero]
      exact .error rfl
    · rw [same, same]
      exact atom tokens
  climb folds least tokens := by
    cases found : infixOp? least tokens with
    | none =>
        rw [climb_stop found, climb_stop found]
        exact .ok ⟨folds, rfl⟩
    | some next =>
        rw [climb_zero found, climb_zero found]
        exact .error rfl

theorem succ (within : FoldsWithin room) : FoldsWithin (room + 1) where
  operand tokens := by
    rcases operand_cases tokens with ⟨op, behind, found⟩ | ⟨offset, behind, rfl⟩ | same
    · rw [operand_prefixed found, operand_prefixed found]
      refine (within.operand behind).map ?_
      rintro ⟨e, rest⟩ ⟨e', _⟩ ⟨folds, rfl⟩
      exact ⟨folds.prefixed op, rfl⟩
    · rw [operand_openParen, operand_openParen]
      refine (within.chain 1 behind).bind ?_
      rintro ⟨e, rest⟩ ⟨e', _⟩ ⟨folds, rfl⟩
      dsimp only
      unfold closing
      split
      · exact .ok ⟨folds, rfl⟩
      · exact .error rfl
    · rw [same, same]
      exact atom tokens
  climb folds least tokens := by
    cases found : infixOp? least tokens with
    | none =>
        rw [climb_stop found, climb_stop found]
        exact .ok ⟨folds, rfl⟩
    | some next =>
        obtain ⟨op, behind⟩ := next
        rw [climb_step found, climb_step found]
        refine (within.chain _ behind).bind ?_
        rintro ⟨right, rest⟩ ⟨right', _⟩ ⟨foldsRight, rfl⟩
        exact within.climb (.infixed op folds foldsRight) least rest

end FoldsWithin

theorem foldsWithin (room : Nat) : FoldsWithin room := by
  induction room with
  | zero => exact .zero
  | succ room ih => exact ih.succ

theorem expression_folds (room : Nat) (tokens : List Located) :
    Alike (· = ·) (Parsed.Related Expression.Folds)
      (expression .plain room tokens) (expression .folding room tokens) := by
  cases room with
  | zero => exact .error rfl
  | succ room => exact (foldsWithin room).chain 1 tokens

/-- Whether a target stands before an assignment does not depend on folding. -/
theorem statement_folds (tokens : List Located) :
    Alike (· = ·) (Parsed.Related Statement.Folds)
      (statement .plain tokens) (statement .folding tokens) := by
  refine (expression_folds maxDepth tokens).bind ?_
  rintro ⟨left, rest⟩ ⟨left', _⟩ ⟨folds, rfl⟩
  dsimp only
  split
  · rename_i rest
    by_cases target : ∃ path, left = .field path
    · obtain ⟨path, rfl⟩ := target
      obtain rfl := (folds.field_iff path).2 rfl
      refine (expression_folds maxDepth rest).bind ?_
      rintro ⟨value, behind⟩ ⟨value', _⟩ ⟨foldsValue, rfl⟩
      exact .ok ⟨.assign path foldsValue, rfl⟩
    · split
      · exact absurd ⟨_, rfl⟩ target
      · split
        · exact absurd ⟨_, (folds.field_iff _).1 rfl⟩ target
        · exact .error rfl
  · exact .ok ⟨.bare folds, rfl⟩

theorem statements_folds (tokens : List Located) :
    Alike (· = ·) (List.Forall₂ Statement.Folds)
      (statements .plain tokens) (statements .folding tokens) := by
  induction size : tokens.length using Nat.strongRecOn generalizing tokens with
  | ind size' ih =>
      subst size
      cases tokens with
      | nil =>
          rw [statements_nil, statements_nil]
          exact .ok .nil
      | cons t rest =>
          cases starts : isSeparator t with
          | true =>
              rw [statements_separator starts, statements_separator starts]
              exact ih _ (by simp) rest rfl
          | false =>
              rw [statements_statement starts, statements_statement starts]
              refine (statement_folds (t :: rest)).bind_of_ok ?_
              rintro ⟨s, behind⟩ ⟨s', _⟩ read ⟨folds, rfl⟩
              cases behind with
              | nil => exact .ok (.cons folds .nil)
              | cons next behind =>
                  have shorter := Nat.lt_trans (Nat.lt_succ_self _) (statement_length read)
                  dsimp only
                  split
                  · exact (ih _ shorter behind rfl).map fun _ _ others => .cons folds others
                  · exact .error rfl

end Parser

theorem Expression.ofTokens_folds (tokens : List Located) :
    Alike (· = ·) Folds (ofTokens .plain tokens) (ofTokens .folding tokens) := by
  unfold ofTokens
  split
  · exact .error rfl
  · have alike := expression_folds maxDepth (tokens.filter (·.token != .newline))
    generalize expression .plain maxDepth _ = x at alike ⊢
    generalize expression .folding maxDepth _ = y at alike ⊢
    cases alike with
    | error same => exact .error same
    | @ok parsed parsed' related =>
        obtain ⟨e, rest⟩ := parsed
        obtain ⟨e', rest'⟩ := parsed'
        obtain ⟨folds, rfl⟩ : e.Folds e' ∧ rest = rest' := related
        cases rest with
        | nil => exact .ok folds
        | cons => exact .error rfl

/-- Statements with the same target, if they have one, whose expressions have the same value or
    error in each fact. -/
inductive Statement.SameMeaning : Statement → Statement → Prop where
  | assign (target : FieldPath) {value value' : Expression}
      (same : ∀ fact, value.eval fact = value'.eval fact) :
      SameMeaning (.assign target value) (.assign target value')
  | bare {e e' : Expression} (same : ∀ fact, e.eval fact = e'.eval fact) :
      SameMeaning (.bare e) (.bare e')

theorem Statement.Folds.sameMeaning {s s' : Statement} (folds : s.Folds s') :
    s.SameMeaning s' := by
  cases folds with
  | assign target folds => exact .assign target folds.eval_eq
  | bare folds => exact .bare folds.eval_eq

/-- A text is accepted with its literals folded just if it is without, or refused with the same
    error, and what it means is the same. -/
theorem Prefixing.parse_folding_alike (text : String) :
    Alike (· = ·) (fun e e' => ∀ fact, e.eval fact = e'.eval fact)
        (tokenize text >>= Expression.ofTokens .plain) (Expression.parse text) ∧
      Alike (· = ·) (List.Forall₂ Statement.SameMeaning)
        (tokenize text >>= Parser.statements .plain) (Statement.parseAll text) := by
  unfold Expression.parse Statement.parseAll
  cases tokenize text with
  | error e => exact ⟨.error rfl, .error rfl⟩
  | ok tokens =>
      constructor
      · have alike := Expression.ofTokens_folds tokens
        exact alike.imp (fun _ _ same => same) fun _ _ folds => folds.eval_eq
      · have alike := statements_folds tokens
        refine alike.imp (fun _ _ same => same) fun _ _ all => ?_
        exact all.imp fun _ _ folds => folds.sameMeaning

/-- The trees are not the same: two minus signs before a number are two operators or none. -/
example :
    let plain := tokenize "--3" >>= Expression.ofTokens .plain
    let three := Json.ofBinary64 (.ofNat 3)
    plain.toOption = some (.prefixed .negate (.prefixed .negate (.literal three))) ∧
      (Expression.parse "--3").toOption = some (.literal three) := by
  decide +kernel

end DecisionTable
