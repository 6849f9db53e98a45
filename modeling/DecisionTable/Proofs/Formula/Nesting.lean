import DecisionTable.Proofs.Formula.Completeness

/-! # How high expressions grow

The parser counts the levels that it is in, and gives them back on the way out. An operand
that has used up all levels is therefore wrapped again by each operator of the chain behind it,
and by each chain outside. So a tree may be higher than there are levels
(`expression_height_le`), if it has tokens to spare (`expression_pays`).
-/

namespace DecisionTable

/-- Nodes on the longest way down an expression, without the literal or field at its end. -/
def Expression.height : Expression → Nat
  | .literal _ | .field _ => 0
  | .prefixed _ operand => operand.height + 1
  | .infixed _ left right => max left.height right.height + 1

/-- The expression that a statement evaluates. -/
def Statement.expression : Statement → Expression
  | .assign _ value => value
  | .bare expression => expression

namespace Parser

theorem height_folding_le (op : PrefixOp) (e : Expression) :
    (Prefixing.folding op e).height ≤ e.height + 1 := by
  unfold Prefixing.folding
  split
  · exact Nat.zero_le _
  · exact Nat.le_refl _

theorem word_height {name : String} {tokens rest : List Located} {e : Expression}
    (h : word name tokens = .ok (e, rest)) : e.height = 0 := by
  unfold word at h
  split at h
  · cases h; rfl
  · cases h; rfl
  · cases h; rfl
  · cases h; rfl
  · split at h <;> cases h
    rfl
  · obtain ⟨⟨_, _⟩, -, eq⟩ := map_eq_ok.1 h
    cases eq
    rfl

theorem atom_height {tokens rest : List Located} {e : Expression}
    (h : atom tokens = .ok (e, rest)) : e.height = 0 := by
  unfold atom at h
  split at h
  · cases h; rfl
  · cases h; rfl
  · exact word_height h
  · cases h

/-- The greatest height of an operand that is read with some room. A parenthesis leaves one level
    less to the chain within, whose operators wrap its first operand once for each level. -/
def operandHeight : Nat → Nat
  | 0 => 0
  | room + 1 => operandHeight room + max 1 room

theorem two_mul_operandHeight_succ (room : Nat) :
    2 * operandHeight (room + 1) = room * (room + 1) + 2 := by
  induction room with
  | zero => rfl
  | succ room ih =>
      rw [operandHeight, Nat.mul_add, ih, Nat.max_eq_right (Nat.le_add_left 1 room)]
      simp only [Nat.add_mul, Nat.mul_add, Nat.mul_one, Nat.one_mul]
      omega

/-- An operator wraps what is read so far once, and what it wraps with was read with less room. -/
theorem operand_climb_height_le (room : Nat) :
    (∀ {tokens e rest}, operand .folding room tokens = .ok (e, rest) →
      e.height ≤ operandHeight room) ∧
    (∀ {least left tokens e rest}, climb .folding room least left tokens = .ok (e, rest) →
      e.height ≤ max left.height (operandHeight room) + room) := by
  refine ok_induction (fun room _ e _ => e.height ≤ operandHeight room)
    (fun room _ left _ e _ => e.height ≤ max left.height (operandHeight room) + room)
    ?ofAtom ?ofPrefix ?ofParens ?ofStop ?ofStep room
  case ofAtom =>
    intro room tokens e rest _ read
    rw [atom_height read]
    exact Nat.zero_le _
  case ofPrefix =>
    intro room tokens op behind e rest _ e_le
    have := height_folding_le op e
    simp only [operandHeight]
    omega
  case ofParens =>
    intro room offset behind first middle e offset' rest first_le e_le
    simp only [operandHeight]
    omega
  case ofStop =>
    intro room least left tokens _
    omega
  case ofStep =>
    intro room least left tokens op behind first middle right onward e rest _ first_le right_le e_le
    simp only [Expression.height] at e_le
    simp only [operandHeight]
    omega

theorem expression_height_le {room : Nat} {tokens rest : List Located} {e : Expression}
    (h : expression .folding (room + 2) tokens = .ok (e, rest)) :
    2 * e.height ≤ room * (room + 3) + 4 := by
  obtain ⟨first, middle, read, extended⟩ := chain_eq_ok.1 h
  have := (operand_climb_height_le (room + 1)).1 read
  have := (operand_climb_height_le (room + 1)).2 extended
  have := two_mul_operandHeight_succ room
  rw [Nat.mul_add] at *
  omega

/-- What an operand's height costs in tokens. It takes more tokens than levels of the tree, and if
    it is higher than the room for it, it holds two operators and takes two more. -/
structure PaysOperand (room : Nat) (tokens : List Located) (e : Expression)
    (rest : List Located) : Prop where
  pays : e.height + 1 + rest.length ≤ tokens.length
  within : e.height ≤ room ∨ e.height + 3 + rest.length ≤ tokens.length

/-- What an extension's height costs in tokens, `spent` of them for the left side. Each operator
    pays for itself and gains a token, so two operators pay for every height. -/
structure PaysChain (room : Nat) (left : Expression) (tokens : List Located) (e : Expression)
    (rest : List Located) : Prop where
  pays : ∀ {spent surplus}, left.height + surplus ≤ spent →
    e.height + surplus + rest.length ≤ spent + tokens.length
  gains : ∀ {spent}, left.height + 2 ≤ spent →
    e = left ∨ e.height + 3 + rest.length ≤ spent + tokens.length
  within : ∀ {spent}, left.height + 1 ≤ spent → left.height ≤ room ∨ left.height + 3 ≤ spent →
    e.height ≤ room + 1 ∨ e.height + 3 + rest.length ≤ spent + tokens.length

theorem PaysOperand.chain {room : Nat} {tokens middle rest : List Located}
    {first e : Expression} (read : PaysOperand room tokens first middle)
    (extended : PaysChain room first middle e rest) :
    e.height + 1 + rest.length ≤ tokens.length ∧
      (e.height ≤ room + 1 ∨ e.height + 3 + rest.length ≤ tokens.length) := by
  obtain ⟨pays, within⟩ := read
  have spent : first.height + 1 ≤ tokens.length - middle.length := by omega
  have paid := extended.pays spent
  have short := extended.within spent (by omega)
  omega

theorem operand_climb_pays (room : Nat) :
    (∀ {tokens e rest}, operand .folding room tokens = .ok (e, rest) →
      PaysOperand room tokens e rest) ∧
    (∀ {least left tokens e rest}, climb .folding room least left tokens = .ok (e, rest) →
      PaysChain room left tokens e rest) := by
  refine ok_induction PaysOperand (fun room _ => PaysChain room)
    ?ofAtom ?ofPrefix ?ofParens ?ofStop ?ofStep room
  case ofAtom =>
    intro room tokens e rest _ read
    have := atom_length read
    have := atom_height read
    constructor <;> omega
  case ofPrefix =>
    intro room tokens op behind e rest found ⟨pays, within⟩
    have := height_folding_le op e
    have := prefixOp?_length found
    constructor <;> omega
  case ofParens =>
    intro room offset behind first middle e offset' rest read extended
    have := read.chain extended
    simp only [List.length_cons] at this
    constructor <;> simp only [List.length_cons] <;> omega
  case ofStop =>
    intro room least left tokens _
    exact ⟨fun h => by omega, fun _ => .inl rfl, fun _ h => by omega⟩
  case ofStep =>
    intro room least left tokens op behind first middle right onward e rest found read extended step
    have right_pays := read.chain extended
    have := infixOp?_length found
    have node : (Expression.infixed op left right).height = max left.height right.height + 1 := rfl
    constructor
    · intro spent surplus paid
      have : (Expression.infixed op left right).height + surplus ≤
          spent + (tokens.length - onward.length) := by omega
      have := step.pays this
      omega
    · intro spent paid
      have : (Expression.infixed op left right).height + 3 ≤
          spent + (tokens.length - onward.length) := by omega
      have := step.pays this
      omega
    · intro spent paid within
      let spent' := spent + (tokens.length - onward.length)
      by_cases surplus : (Expression.infixed op left right).height + 3 ≤ spent'
      · have := step.pays surplus
        omega
      · have small : (Expression.infixed op left right).height ≤ room + 1 + 1 := by omega
        have some : (Expression.infixed op left right).height + 2 ≤ spent' := by omega
        rcases step.gains some with rfl | paid'
        · exact .inl small
        · omega

/-- An expression that is too high for its levels has more than three tokens to spare. -/
theorem expression_pays {room : Nat} {tokens rest : List Located} {e : Expression}
    (h : expression .folding (room + 1) tokens = .ok (e, rest)) :
    e.height ≤ room + 1 ∨ e.height + 3 ≤ tokens.length := by
  obtain ⟨first, middle, read, extended⟩ := chain_eq_ok.1 h
  have := (((operand_climb_pays room).1 read).chain ((operand_climb_pays room).2 extended)).2
  omega

theorem statement_expression {prefixing : Prefixing} {tokens rest : List Located} {s : Statement}
    (h : statement prefixing tokens = .ok (s, rest)) :
    ∃ part behind, part.length ≤ tokens.length ∧
      expression prefixing maxDepth part = .ok (s.expression, behind) := by
  rcases statement_eq_ok.1 h with ⟨_, value, _, middle, rfl, read, assigned⟩ | ⟨e, rfl, read, -⟩
  · have := expression_length read
    simp only [List.length_cons] at this
    exact ⟨middle, rest, by omega, assigned⟩
  · exact ⟨tokens, rest, Nat.le_refl _, read⟩

/-- Each statement's expression is read from a part of the tokens. -/
theorem statements_expression {prefixing : Prefixing} {tokens : List Located}
    {list : List Statement} (h : statements prefixing tokens = .ok list) :
    ∀ s ∈ list, ∃ part behind, part.length ≤ tokens.length ∧
      expression prefixing maxDepth part = .ok (s.expression, behind) := by
  refine statements_ok_induction (fun tokens list => ∀ s ∈ list, ∃ part behind,
    part.length ≤ tokens.length ∧ expression prefixing maxDepth part = .ok (s.expression, behind))
    ?ofNil ?ofSeparator ?ofLast ?ofStatement h
  case ofNil => simp
  case ofSeparator =>
    intro t rest list _ ih s mem
    obtain ⟨part, behind, le, read⟩ := ih s mem
    exact ⟨part, behind, Nat.le_succ_of_le le, read⟩
  case ofLast =>
    intro t rest s _ read s' mem
    rw [List.mem_singleton] at mem
    exact mem ▸ statement_expression read
  case ofStatement =>
    intro t rest s next behind list _ read _ ih s' mem
    rcases List.mem_cons.1 mem with rfl | mem
    · exact statement_expression read
    · obtain ⟨part, behind', le, read'⟩ := ih s' mem
      have := statement_length read
      simp only [List.length_cons] at *
      exact ⟨part, behind', by omega, read'⟩

end Parser

end DecisionTable
