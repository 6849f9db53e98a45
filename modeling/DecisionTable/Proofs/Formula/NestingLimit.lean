import DecisionTable.Proofs.Formula.Nesting
import DecisionTable.Proofs.Formula.Lexing

/-! # The highest expressions

The bounds on the height of accepted expressions are met. `Tower.tokens n` is an operand that
takes `n + 1` levels, one of them for each parenthesis around it, and the chain in a
parenthesis is as long as the levels left there allow. With 256 levels a tower is 32641 high.
The shortest text that is higher than 256 has 260 tokens.
-/

namespace DecisionTable

namespace Tower

open DecisionTable.Parser

/-- `+ a`, some times. -/
def pluses : Nat → List Token
  | 0 => []
  | n + 1 => .operator .add :: .word "a" :: pluses n

/-- `a` behind some prefix operators. -/
def bangs : Nat → List Token
  | 0 => [.word "a"]
  | n + 1 => .bang :: bangs n

def tokens : Nat → List Token
  | 0 => bangs 1
  | n + 1 => .openParen :: (tokens n ++ pluses (n + 1)) ++ [.closeParen]

/-- An expression with `+ a` behind it, some times. -/
def wrapped : Nat → Expression → Expression
  | 0, e => e
  | n + 1, e => wrapped n (.infixed .add e (.field ⟨"a", []⟩))

def negated : Nat → Expression
  | 0 => .field ⟨"a", []⟩
  | n + 1 => .prefixed .not (negated n)

def tree : Nat → Expression
  | 0 => negated 1
  | n + 1 => wrapped (n + 1) (tree n)

theorem height_wrapped (n : Nat) (e : Expression) : (wrapped n e).height = e.height + n := by
  induction n generalizing e with
  | zero => rfl
  | succ n ih =>
      simp only [wrapped, ih, Expression.height]
      omega

theorem height_negated (n : Nat) : (negated n).height = n := by
  induction n with
  | zero => rfl
  | succ n ih => rw [negated, Expression.height, ih]

theorem length_pluses (n : Nat) : (pluses n).length = 2 * n := by
  induction n with
  | zero => rfl
  | succ n ih =>
      simp only [pluses, List.length_cons, ih]
      omega

theorem length_bangs (n : Nat) : (bangs n).length = n + 1 := by
  induction n with
  | zero => rfl
  | succ n ih => rw [bangs, List.length_cons, ih]

theorem two_mul_height_tree (n : Nat) : 2 * (tree n).height = n * (n + 1) + 2 := by
  induction n with
  | zero => rfl
  | succ n ih =>
      simp only [tree, height_wrapped, Nat.mul_add, ih]
      simp only [Nat.add_mul, Nat.mul_one, Nat.one_mul]
      omega

/-- With some room, the tokens are read as an operand, wherever they stand. -/
def Reads (room : Nat) (ts : List Token) (e : Expression) : Prop :=
  ∀ ⦃located rest⦄, located.map Located.token = ts → members rest = .ok ([], rest) →
    operand .folding room (located ++ rest) = .ok (e, rest)

theorem reads_bangs (n : Nat) {room : Nat} (enough : n ≤ room) :
    Reads room (bangs n) (negated n) := by
  intro located rest spelled noMember
  induction n generalizing room located with
  | zero =>
      obtain ⟨offset, behind, rfl, ended⟩ := map_token_eq_cons spelled
      rw [List.map_eq_nil_iff.1 ended, List.cons_append, List.nil_append,
        operand_atom rfl (by simp), atom, word_path (by decide) (by decide), noMember]
      rfl
  | succ n ih =>
      obtain ⟨offset, behind, rfl, others⟩ := map_token_eq_cons spelled
      obtain ⟨room, rfl⟩ : ∃ fewer, room = fewer + 1 := ⟨room - 1, by omega⟩
      rw [List.cons_append, operand_prefixed rfl, ih (Nat.le_of_succ_le_succ enough) others]
      rfl

theorem closes_pluses {n : Nat} {located rest : List Located}
    (spelled : located.map Located.token = pluses n) (closes : Closes 0 rest) :
    Closes 5 (located ++ rest) := by
  cases n with
  | zero =>
      rw [List.map_eq_nil_iff.1 spelled]
      exact closes.mono (Nat.zero_le 5)
  | succ n =>
      obtain ⟨offset, behind, rfl, _⟩ := map_token_eq_cons spelled
      exact closes_operator offset (behind ++ rest) (Nat.le_refl 5)

/-- A chain is read if there are as many levels as operators. -/
theorem climb_pluses {n room : Nat} (enough : n ≤ room) (left : Expression)
    {located rest : List Located} (spelled : located.map Located.token = pluses n)
    (closes : Closes 0 rest) :
    climb .folding room 1 left (located ++ rest) = .ok (wrapped n left, rest) := by
  induction n generalizing room left located with
  | zero =>
      rw [List.map_eq_nil_iff.1 spelled]
      exact climb_stop closes.noTighter
  | succ n ih =>
      obtain ⟨offset, _, rfl, operated⟩ := map_token_eq_cons spelled
      obtain ⟨offset', behind, rfl, others⟩ := map_token_eq_cons operated
      obtain ⟨room, rfl⟩ : ∃ fewer, room = fewer + 1 := ⟨room - 1, by omega⟩
      have closes' := closes_pluses others closes
      have spelledA : [Located.mk (.word "a") offset'].map Located.token = bangs 0 := rfl
      have right : chain .folding room 6 (⟨.word "a", offset'⟩ :: (behind ++ rest)) =
          .ok (.field ⟨"a", []⟩, behind ++ rest) :=
        chain_eq_ok.2 ⟨_, _, reads_bangs 0 (Nat.zero_le room) spelledA closes'.noMember,
          climb_stop closes'.noTighter⟩
      simp only [List.cons_append]
      rw [climb_step rfl, InfixOp.precedence, right]
      exact ih (Nat.le_of_succ_le_succ enough) _ others

theorem Reads.chain {room n : Nat} (enough : n ≤ room) {ts : List Token} {e : Expression}
    (reads : Reads room ts e) {located rest : List Located}
    (spelled : located.map Located.token = ts ++ pluses n) (closes : Closes 0 rest) :
    chain .folding room 1 (located ++ rest) = .ok (wrapped n e, rest) := by
  obtain ⟨first, added, rfl, spelledFirst, spelledAdded⟩ := List.map_eq_append_iff.1 spelled
  rw [List.append_assoc]
  exact chain_eq_ok.2 ⟨_, _, reads spelledFirst (closes_pluses spelledAdded closes).noMember,
    climb_pluses enough e spelledAdded closes⟩

/-- Each parenthesis leaves one level less, and a chain that is one operator shorter. -/
theorem reads_tokens (n : Nat) : Reads (n + 1) (tokens n) (tree n) := by
  induction n with
  | zero => exact reads_bangs 1 (Nat.le_refl 1)
  | succ n ih =>
      intro located rest spelled noMember
      obtain ⟨offset, _, rfl, opened⟩ := map_token_eq_cons spelled
      obtain ⟨inner, last, rfl, within, closing⟩ := List.map_eq_append_iff.1 opened
      obtain ⟨offset', _, rfl, ended⟩ := map_token_eq_cons closing
      rw [List.map_eq_nil_iff.1 ended]
      have whole := ih.chain (Nat.le_refl (n + 1)) within (closes_closeParen 0 offset' rest)
      simp only [List.cons_append, List.append_assoc, List.nil_append]
      rw [operand_openParen, whole]
      rfl

/-- The tokens of towers. Each has one character, which `letter` says. -/
def alphabet : List Token := [.bang, .word "a", .operator .add, .openParen, .closeParen]

def letter : Token → Char
  | .bang => '!'
  | .operator _ => '+'
  | .openParen => '('
  | .closeParen => ')'
  | _ => 'a'

/-- Tokens as a text, with a blank behind each. -/
def text (ts : List Token) : String := String.ofList (ts.flatMap fun t => [letter t, ' '])

theorem pluses_subset (n : Nat) : pluses n ⊆ alphabet := by
  induction n with
  | zero => exact List.nil_subset _
  | succ n ih =>
      refine List.cons_subset.2 ⟨?_, List.cons_subset.2 ⟨?_, ih⟩⟩ <;> simp [alphabet]

theorem bangs_subset (n : Nat) : bangs n ⊆ alphabet := by
  induction n with
  | zero => simp [bangs, alphabet]
  | succ n ih => exact List.cons_subset.2 ⟨by simp [alphabet], ih⟩

theorem tokens_subset (n : Nat) : tokens n ⊆ alphabet := by
  induction n with
  | zero => exact bangs_subset 1
  | succ n ih =>
      refine List.append_subset.2 ⟨List.cons_subset.2 ⟨?_, ?_⟩, ?_⟩
      · simp [alphabet]
      · exact List.append_subset.2 ⟨ih, pluses_subset (n + 1)⟩
      · simp [alphabet]

theorem spells_text {ts : List Token} (known : ts ⊆ alphabet) :
    Lexer.Spells (text ts).toList ts := by
  rw [text, String.toList_ofList]
  induction ts with
  | nil => exact Lexer.spells_nil
  | cons t ts ih =>
      obtain ⟨head, others⟩ := List.cons_subset.1 known
      have blank : Lexer.Spells (' ' :: ts.flatMap fun t => [letter t, ' ']) ts :=
        (ih others).blank rfl
      simp only [alphabet, List.mem_cons, List.not_mem_nil, or_false] at head
      rcases head with rfl | rfl | rfl | rfl | rfl <;> exact blank.token rfl

/-- An operand and a chain behind it are accepted as a text, if there is room for both. -/
theorem accepted {ts : List Token} {e : Expression} {n : Nat} (known : ts ⊆ alphabet)
    (reads : Reads 255 ts e) (enough : n ≤ 255) :
    (∃ located, tokenize (text (ts ++ pluses n)) = .ok located ∧
      located.length = (ts ++ pluses n).length) ∧
    Expression.parse (text (ts ++ pluses n)) = .ok (wrapped n e) ∧
    Statement.parseAll (text (ts ++ pluses n)) = .ok [.bare (wrapped n e)] := by
  have subset : ts ++ pluses n ⊆ alphabet := List.append_subset.2 ⟨known, pluses_subset n⟩
  obtain ⟨located, found, spelled⟩ := spells_text subset 0
  have separates : ∀ t ∈ located, isSeparator t = false := by
    intro t mem
    have := subset (spelled ▸ List.mem_map_of_mem mem)
    simp only [alphabet, List.mem_cons, List.not_mem_nil, or_false] at this
    rcases this with eq | eq | eq | eq | eq <;> rw [isSeparator, eq] <;> rfl
  have read : expression .folding maxDepth located = .ok (wrapped n e, []) := by
    have := reads.chain enough spelled (closes_nil 0)
    rwa [List.append_nil] at this
  refine ⟨⟨located, found, by rw [← spelled, List.length_map]⟩,
    bind_eq_ok.2 ⟨located, found, ?_⟩, bind_eq_ok.2 ⟨located, found, ?_⟩⟩
  · refine Expression.ofTokens_eq_ok.2 ?_
    rw [List.filter_eq_self.2 fun t mem => ?_]
    · exact read
    · have := separates t mem
      simp_all [isSeparator]
  · have := expression_length read
    obtain ⟨t, rest, rfl⟩ := List.exists_cons_of_length_pos (Nat.zero_lt_of_lt this)
    rw [statements_statement (separates t List.mem_cons_self),
      statement_eq_ok.2 (.inr ⟨_, rfl, read, by simp⟩)]
    rfl

/-- The tower that takes all levels. -/
theorem accepted_highest : ∃ text e, e.height = 32641 ∧ Expression.parse text = .ok e ∧
    Statement.parseAll text = .ok [.bare e] := by
  have := two_mul_height_tree 255
  obtain ⟨-, parsed, parsedAll⟩ :=
    accepted (tokens_subset 254) (reads_tokens 254) (Nat.le_refl 255)
  exact ⟨_, tree 255, by omega, parsed, parsedAll⟩

/-- 255 prefix operators give back their levels before two more operators wrap them. -/
theorem accepted_shortest : ∃ text located e, tokenize text = .ok located ∧
    located.length = 260 ∧ maxDepth < e.height ∧ Expression.parse text = .ok e ∧
    Statement.parseAll text = .ok [.bare e] := by
  obtain ⟨⟨located, found, size⟩, parsed, parsedAll⟩ :=
    accepted (bangs_subset 255) (reads_bangs 255 (Nat.le_refl 255)) (by omega : 2 ≤ 255)
  refine ⟨_, located, _, found, ?_, ?_, parsed, parsedAll⟩
  · rw [size, List.length_append, length_bangs, length_pluses]
  · rw [height_wrapped, height_negated]
    decide

end Tower

namespace Expression

/-- A limit holds for the height of all accepted expressions if it is 32641 or more. The limit of
    256 is kept to by all texts up to some size if the size is less than 260 tokens. -/
theorem height_le_iff (limit size : Nat) :
    ((∀ text e, parse text = .ok e → e.height ≤ limit) ↔ 32641 ≤ limit) ∧
    ((∀ text list, Statement.parseAll text = .ok list →
      ∀ s ∈ list, s.expression.height ≤ limit) ↔ 32641 ≤ limit) ∧
    ((∀ text located e, tokenize text = .ok located → located.length ≤ size →
      parse text = .ok e → e.height ≤ maxDepth) ↔ size < 260) ∧
    ((∀ text located list, tokenize text = .ok located → located.length ≤ size →
      Statement.parseAll text = .ok list → ∀ s ∈ list, s.expression.height ≤ maxDepth) ↔
        size < 260) := by
  obtain ⟨highest, top, high, parsed, parsedAll⟩ := Tower.accepted_highest
  obtain ⟨shortest, located, e, found, long, high', parsed', parsedAll'⟩ :=
    Tower.accepted_shortest
  have within : ∀ {part rest e}, Parser.expression .folding maxDepth part = .ok (e, rest) →
      e.height ≤ 32641 ∧ (part.length < 260 → e.height ≤ maxDepth) := by
    intro part rest e read
    simp only [maxDepth] at *
    have := Parser.expression_height_le read
    have := Parser.expression_pays read
    omega
  refine ⟨⟨fun bounded => ?_, fun enough => ?_⟩, ⟨fun bounded => ?_, fun enough => ?_⟩,
    ⟨fun bounded => ?_, fun short => ?_⟩, ⟨fun bounded => ?_, fun short => ?_⟩⟩
  · exact high ▸ bounded highest top parsed
  · intro text e h
    obtain ⟨located, -, read⟩ := Parser.bind_eq_ok.1 h
    exact Nat.le_trans (within (ofTokens_eq_ok.1 read)).1 enough
  · exact high ▸ bounded highest _ parsedAll _ List.mem_cons_self
  · intro text list h s mem
    obtain ⟨located, -, read⟩ := Parser.bind_eq_ok.1 h
    obtain ⟨part, behind, -, read⟩ := Parser.statements_expression read s mem
    exact Nat.le_trans (within read).1 enough
  · refine Nat.lt_of_not_le fun le => ?_
    exact Nat.not_le_of_gt high' (bounded shortest located e found (long ▸ le) parsed')
  · intro text located e tokenized le h
    rw [parse, tokenized] at h
    have := List.length_filter_le (·.token != .newline) located
    exact (within (ofTokens_eq_ok.1 h)).2 (by omega)
  · refine Nat.lt_of_not_le fun le => ?_
    exact Nat.not_le_of_gt high'
      (bounded shortest located _ found (long ▸ le) parsedAll' _ List.mem_cons_self)
  · intro text located list tokenized le h s mem
    rw [Statement.parseAll, tokenized] at h
    obtain ⟨part, behind, shorter, read⟩ := Parser.statements_expression h s mem
    exact (within read).2 (by omega)

/-- A tree whose height is one more than the limit is accepted. -/
theorem height_le_exceeded :
    parse (Tower.text (Tower.bangs 255 ++ Tower.pluses 2)) =
      .ok (Tower.wrapped 2 (Tower.negated 255)) ∧
    Statement.parseAll (Tower.text (Tower.bangs 255 ++ Tower.pluses 2)) =
      .ok [.bare (Tower.wrapped 2 (Tower.negated 255))] ∧
    maxDepth < (Tower.wrapped 2 (Tower.negated 255)).height := by
  obtain ⟨-, parsed, parsedAll⟩ := Tower.accepted (Tower.bangs_subset 255)
    (Tower.reads_bangs 255 (Nat.le_refl 255)) (by omega : 2 ≤ 255)
  refine ⟨parsed, parsedAll, ?_⟩
  rw [Tower.height_wrapped, Tower.height_negated]
  decide

end Expression

end DecisionTable
