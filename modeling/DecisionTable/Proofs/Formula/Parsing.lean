import DecisionTable.Formula.Parser

/-! # Runs of the expression parser

One equation for each thing that `operand` and `climb` can do, and one induction over the
runs that succeed (`ok_induction`). What holds of every parsed expression is proved by giving
its five cases, without a look at the parser's text. `statements_ok_induction` does the same
for lists of statements.
-/

namespace DecisionTable

namespace Parser

/-- A result can be compared with an expected one as an option, which is decidable. -/
theorem toOption_eq_some {ε α : Type} {x : Except ε α} {a : α} :
    x.toOption = some a ↔ x = .ok a := by
  cases x <;> simp [Except.toOption]

variable {prefixing : Prefixing}

/-- Reads an operand and the operators behind it that bind at least as tightly as asked. -/
def chain (prefixing : Prefixing) (room least : Nat) (tokens : List Located) :
    Except ParseError (Parsed Expression) := do
  let (first, rest) ← operand prefixing room tokens
  climb prefixing room least first rest

theorem operand_prefixed {room : Nat} {tokens behind : List Located} {op : PrefixOp}
    (found : prefixOp? tokens = some (op, behind)) :
    operand prefixing (room + 1) tokens =
      (operand prefixing room behind).map fun (e, rest) => (prefixing op e, rest) := by
  conv => lhs; unfold operand
  rw [found]
  dsimp only
  cases operand prefixing room behind <;> rfl

theorem operand_prefixed_zero {tokens behind : List Located} {op : PrefixOp}
    (found : prefixOp? tokens = some (op, behind)) :
    operand prefixing 0 tokens = .error (.tooDeep (offsetOf tokens)) := by
  unfold operand
  rw [found]

theorem operand_openParen {room offset : Nat} {behind : List Located} :
    operand prefixing (room + 1) (⟨.openParen, offset⟩ :: behind) =
      chain prefixing room 1 behind >>= fun (e, rest) => closing e rest := by
  unfold operand chain
  simp only [prefixOp?]
  cases operand prefixing room behind <;> rfl

theorem operand_openParen_zero {offset : Nat} {behind : List Located} :
    operand prefixing 0 (⟨.openParen, offset⟩ :: behind) =
      .error (.tooDeep (offsetOf behind)) := by
  unfold operand
  simp only [prefixOp?]

theorem operand_atom {room : Nat} {t : Located} {behind : List Located}
    (noPrefix : prefixOp? (t :: behind) = none) (noParen : t.token ≠ .openParen) :
    operand prefixing room (t :: behind) = atom (t :: behind) := by
  unfold operand
  rw [noPrefix]
  dsimp only
  split
  · rename_i opens
    cases opens
    exact absurd rfl noParen
  · rfl

theorem climb_stop {room least : Nat} {left : Expression} {tokens : List Located}
    (stops : infixOp? least tokens = none) :
    climb prefixing room least left tokens = .ok (left, tokens) := by
  unfold climb
  rw [stops]

theorem climb_step {room least : Nat} {left : Expression} {tokens behind : List Located}
    {op : InfixOp} (found : infixOp? least tokens = some (op, behind)) :
    climb prefixing (room + 1) least left tokens =
      chain prefixing room (op.precedence + 1) behind >>= fun (right, rest) =>
        climb prefixing room least (.infixed op left right) rest := by
  conv => lhs; unfold climb
  rw [found, chain]
  dsimp only
  cases operand prefixing room behind <;> rfl

theorem climb_zero {least : Nat} {left : Expression} {tokens behind : List Located}
    {op : InfixOp} (found : infixOp? least tokens = some (op, behind)) :
    climb prefixing 0 least left tokens = .error (.tooDeep (offsetOf tokens)) := by
  unfold climb
  rw [found]

theorem expression_succ {room : Nat} {tokens : List Located} :
    expression prefixing (room + 1) tokens = chain prefixing room 1 tokens := rfl

theorem chain_eq_ok {room least : Nat} {tokens rest : List Located} {e : Expression} :
    chain prefixing room least tokens = .ok (e, rest) ↔
      ∃ first behind, operand prefixing room tokens = .ok (first, behind) ∧
        climb prefixing room least first behind = .ok (e, rest) := by
  simp only [chain, bind_eq_ok, Prod.exists]

theorem closing_eq_ok {e e' : Expression} {tokens rest : List Located}
    (h : closing e tokens = .ok (e', rest)) :
    e' = e ∧ ∃ offset, tokens = ⟨.closeParen, offset⟩ :: rest := by
  unfold closing at h
  split at h
  · cases h
    exact ⟨rfl, _, rfl⟩
  · cases h

/-- Induction over the runs that succeed: a relation that holds of every read operand and one
    that holds of every extended left side, each proved from the runs within. -/
theorem ok_induction (Read : Nat → List Located → Expression → List Located → Prop)
    (Extended : Nat → Nat → Expression → List Located → Expression → List Located → Prop)
    (ofAtom : ∀ {room tokens e rest}, prefixOp? tokens = none → atom tokens = .ok (e, rest) →
      Read room tokens e rest)
    (ofPrefix : ∀ {room tokens op behind e rest}, prefixOp? tokens = some (op, behind) →
      Read room behind e rest → Read (room + 1) tokens (prefixing op e) rest)
    (ofParens : ∀ {room offset behind first middle e offset' rest},
      Read room behind first middle →
      Extended room 1 first middle e (⟨.closeParen, offset'⟩ :: rest) →
      Read (room + 1) (⟨.openParen, offset⟩ :: behind) e rest)
    (ofStop : ∀ {room least left tokens}, infixOp? least tokens = none →
      Extended room least left tokens left tokens)
    (ofStep : ∀ {room least left tokens op behind first middle right onward e rest},
      infixOp? least tokens = some (op, behind) → Read room behind first middle →
      Extended room (op.precedence + 1) first middle right onward →
      Extended room least (.infixed op left right) onward e rest →
      Extended (room + 1) least left tokens e rest)
    (room : Nat) :
    (∀ {tokens e rest}, operand prefixing room tokens = .ok (e, rest) →
      Read room tokens e rest) ∧
    (∀ {least left tokens e rest}, climb prefixing room least left tokens = .ok (e, rest) →
      Extended room least left tokens e rest) := by
  have stopped : ∀ {room least left tokens e rest}, infixOp? least tokens = none →
      climb prefixing room least left tokens = .ok (e, rest) →
      Extended room least left tokens e rest := by
    intro room least left tokens e rest stops h
    rw [climb_stop stops] at h
    cases h
    exact ofStop stops
  induction room with
  | zero =>
      constructor
      · intro tokens e rest h
        unfold operand at h
        split at h
        · cases h
        · rename_i noPrefix
          split at h
          · cases h
          · exact ofAtom noPrefix h
      · intro least left tokens e rest h
        cases found : infixOp? least tokens with
        | none => exact stopped found h
        | some next =>
            rw [climb_zero found] at h
            cases h
  | succ room ih =>
      constructor
      · intro tokens e rest h
        cases found : prefixOp? tokens with
        | some next =>
            rw [operand_prefixed found] at h
            obtain ⟨⟨e', _⟩, read, eq⟩ := map_eq_ok.1 h
            cases eq
            exact ofPrefix found (ih.1 read)
        | none =>
            unfold operand at h
            rw [found] at h
            dsimp only at h
            split at h
            · obtain ⟨⟨first, middle⟩, read, h⟩ := bind_eq_ok.1 h
              obtain ⟨⟨e', onward⟩, extended, h⟩ := bind_eq_ok.1 h
              obtain ⟨rfl, _, rfl⟩ := closing_eq_ok h
              exact ofParens (ih.1 read) (ih.2 extended)
            · exact ofAtom found h
      · intro least left tokens e rest h
        cases found : infixOp? least tokens with
        | none => exact stopped found h
        | some next =>
            rw [climb_step found] at h
            obtain ⟨⟨right, onward⟩, chained, h⟩ := bind_eq_ok.1 h
            obtain ⟨first, middle, read, extended⟩ := chain_eq_ok.1 chained
            exact ofStep found (ih.1 read) (ih.2 extended) (ih.2 h)

/-- A statement is an assignment, or an expression before something else than `=`. -/
theorem statement_eq_ok {tokens rest : List Located} {s : Statement} :
    statement prefixing tokens = .ok (s, rest) ↔
      (∃ target value offset middle, s = .assign target value ∧
        expression prefixing maxDepth tokens =
          .ok (.field target, ⟨.assign, offset⟩ :: middle) ∧
        expression prefixing maxDepth middle = .ok (value, rest)) ∨
      ∃ e, s = .bare e ∧ expression prefixing maxDepth tokens = .ok (e, rest) ∧
        ∀ t ∈ rest.head?, t.token ≠ .assign := by
  constructor
  · intro h
    obtain ⟨⟨left, middle⟩, read, h⟩ := bind_eq_ok.1 h
    dsimp only at h
    split at h
    · split at h
      · obtain ⟨⟨value, behind⟩, assigned, h⟩ := bind_eq_ok.1 h
        cases h
        exact .inl ⟨_, value, _, _, rfl, read, assigned⟩
      · cases h
    · rename_i bare
      cases h
      refine .inr ⟨left, rfl, read, fun t head eq => ?_⟩
      obtain ⟨rest, rfl⟩ := List.head?_eq_some_iff.1 head
      exact bare t.offset rest (congrArg (fun token => ⟨token, t.offset⟩ :: rest) eq)
  · rintro (⟨target, value, offset, middle, rfl, read, assigned⟩ | ⟨e, rfl, read, bare⟩)
    · exact bind_eq_ok.2 ⟨_, read, bind_eq_ok.2 ⟨_, assigned, rfl⟩⟩
    · refine bind_eq_ok.2 ⟨_, read, ?_⟩
      dsimp only
      split
      · exact absurd rfl (bare _ rfl)
      · rfl

theorem statements_nil : statements prefixing [] = .ok [] := by
  rw [statements]

theorem statements_separator {t : Located} {rest : List Located}
    (separates : isSeparator t = true) :
    statements prefixing (t :: rest) = statements prefixing rest := by
  rw [statements, if_pos separates]

theorem statements_statement {t : Located} {rest : List Located} (starts : isSeparator t = false) :
    statements prefixing (t :: rest) = statement prefixing (t :: rest) >>= fun
      | (s, []) => .ok [s]
      | (s, next :: behind) =>
        if isSeparator next then (statements prefixing behind).map (s :: ·)
        else .error (.unexpected next.token .endOfStatement next.offset) := by
  rw [statements, if_neg (by simp [starts])]
  split
  · simp only [*]
    rfl
  · rename_i s behind read
    cases behind <;> simp only [read] <;> rfl

/-- Induction over the lists of statements that are read. -/
theorem statements_ok_induction (All : List Located → List Statement → Prop) (ofNil : All [] [])
    (ofSeparator : ∀ {t rest list}, isSeparator t = true → All rest list → All (t :: rest) list)
    (ofLast : ∀ {t rest s}, isSeparator t = false →
      statement prefixing (t :: rest) = .ok (s, []) → All (t :: rest) [s])
    (ofStatement : ∀ {t rest s next behind list}, isSeparator t = false →
      statement prefixing (t :: rest) = .ok (s, next :: behind) → isSeparator next = true →
      All behind list → All (t :: rest) (s :: list))
    {tokens : List Located} {list : List Statement}
    (h : statements prefixing tokens = .ok list) : All tokens list := by
  induction size : tokens.length using Nat.strongRecOn generalizing tokens list with
  | ind size' ih =>
      subst size
      cases tokens with
      | nil =>
          rw [statements] at h
          cases h
          exact ofNil
      | cons t rest =>
          cases starts : isSeparator t with
          | true =>
              rw [statements_separator starts] at h
              exact ofSeparator starts (ih _ (by simp) h rfl)
          | false =>
              rw [statements_statement starts] at h
              obtain ⟨⟨s, behind⟩, read, h⟩ := bind_eq_ok.1 h
              cases behind with
              | nil =>
                  cases h
                  exact ofLast starts read
              | cons next behind =>
                  have shorter := Nat.lt_trans (Nat.lt_succ_self _) (statement_length read)
                  dsimp only at h
                  split at h
                  · rename_i separates
                    obtain ⟨others, readOthers, rfl⟩ := map_eq_ok.1 h
                    exact ofStatement starts read separates (ih _ shorter readOthers rfl)
                  · cases h

end Parser

/-- An expression has all tokens that count. -/
theorem Expression.ofTokens_eq_ok {prefixing : Prefixing} {located : List Located}
    {e : Expression} : ofTokens prefixing located = .ok e ↔
      Parser.expression prefixing maxDepth (located.filter (·.token != .newline)) =
        .ok (e, []) := by
  unfold ofTokens
  split
  · rename_i none
    rw [none]
    constructor
    · intro h
      cases h
    · intro h
      exact absurd (Parser.expression_length h) (Nat.not_lt_zero _)
  · split
    · simp_all
    · simp_all
    · simp_all

end DecisionTable
