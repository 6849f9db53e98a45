import DecisionTable.Proofs.Formula.Grammar
import DecisionTable.Proofs.Formula.Parsing

/-! # What the parser reads is derived

An operand that is read is one of the grammar, and so is a left side with the operators that
are read behind it. The level of the left side is not that of the call: it is tight enough
for the next operator, because the operators that bind more tightly have been used up.
-/

namespace DecisionTable

open Grammar

namespace Parser

theorem memberKey?_accesses {key : Token} {name : String} {tokens : List Token}
    {names : List String} (found : memberKey? key = some name) (others : Accesses tokens names) :
    Accesses (.openBracket :: key :: .closeBracket :: tokens) (name :: names) := by
  unfold memberKey? at found
  split at found
  · cases found
    exact .keyed others
  · obtain ⟨n, whole, rfl⟩ := Option.map_eq_some_iff.1 found
    exact .indexed whole others
  · cases found

theorem members_sound {tokens rest : List Located} {names : List String}
    (h : members tokens = .ok (names, rest)) :
    ∃ used, tokens = used ++ rest ∧ Accesses (used.map Located.token) names := by
  fun_induction members tokens generalizing names rest with
  | case1 dot name place _ ih =>
      obtain ⟨⟨_, _⟩, read, eq⟩ := map_eq_ok.1 h
      cases eq
      obtain ⟨used, rfl, accesses⟩ := ih read
      exact ⟨⟨.dot, dot⟩ :: ⟨.word name, place⟩ :: used, rfl, .named accesses⟩
  | case2 => simp at h
  | case3 => simp at h
  | case4 opening key name found closing _ ih =>
      obtain ⟨⟨_, _⟩, read, eq⟩ := map_eq_ok.1 h
      cases eq
      obtain ⟨used, rfl, accesses⟩ := ih read
      exact ⟨⟨.openBracket, opening⟩ :: key :: ⟨.closeBracket, closing⟩ :: used, rfl,
        memberKey?_accesses found accesses⟩
  | case5 => simp at h
  | case6 => simp at h
  | case7 =>
      cases h
      exact ⟨[], rfl, .nil⟩

theorem word_sound {name : String} {tokens rest : List Located} {e : Expression}
    (h : word name tokens = .ok (e, rest)) :
    ∃ used, tokens = used ++ rest ∧ Derives 7 (.word name :: used.map Located.token) e := by
  have constant : ∀ {value}, (name, value) ∈ constants →
      (.ok (.literal value, tokens) : Except ParseError _) = .ok (e, rest) →
      ∃ used, tokens = used ++ rest ∧ Derives 7 (.word name :: used.map Located.token) e := by
    intro value known h
    cases h
    exact ⟨[], rfl, .constant known⟩
  unfold word at h
  split at h
  · exact constant (by simp [constants]) h
  · exact constant (by simp [constants]) h
  · exact constant (by simp [constants]) h
  · exact constant (by simp [constants]) h
  · split at h
    · cases h
    · cases h
    · rename_i read
      cases h
      obtain ⟨used, rfl, accesses⟩ := members_sound read
      exact ⟨used, rfl, .this accesses⟩
  · obtain ⟨⟨_, _⟩, read, eq⟩ := map_eq_ok.1 h
    cases eq
    obtain ⟨used, rfl, accesses⟩ := members_sound read
    exact ⟨used, rfl, .path (by simp_all [constants]) ‹_› accesses⟩

theorem atom_sound {tokens rest : List Located} {e : Expression}
    (h : atom tokens = .ok (e, rest)) :
    ∃ used, tokens = used ++ rest ∧ Derives 7 (used.map Located.token) e := by
  unfold atom at h
  split at h
  · cases h
    exact ⟨[_], rfl, .number⟩
  · cases h
    exact ⟨[_], rfl, .string⟩
  · obtain ⟨used, rfl, d⟩ := word_sound h
    exact ⟨_ :: used, rfl, d⟩
  · cases h

theorem prefixOp?_sound {tokens behind : List Located} {op : PrefixOp} {used : List Token}
    {e : Expression} (found : prefixOp? tokens = some (op, behind)) (d : Derives 7 used e) :
    ∃ t, tokens = t :: behind ∧ Derives 7 (t.token :: used) (Prefixing.folding op e) := by
  unfold prefixOp? at found
  split at found
  · cases found
    exact ⟨_, rfl, .not d⟩
  · cases found
    refine ⟨_, rfl, ?_⟩
    unfold Prefixing.folding
    split
    · exact .opposite d
    · rename_i other
      exact .negate d fun n eq => other n rfl eq
  · cases found

theorem infixOp?_eq_some {least : Nat} {tokens behind : List Located} {op : InfixOp} :
    infixOp? least tokens = some (op, behind) ↔
      least ≤ op.precedence ∧ ∃ offset, tokens = ⟨.operator op, offset⟩ :: behind := by
  constructor
  · intro found
    unfold infixOp? at found
    split at found
    · split at found
      · cases found
        exact ⟨‹_›, _, rfl⟩
      · cases found
    · cases found
  · rintro ⟨tight, _, rfl⟩
    simp [infixOp?, tight]

theorem infixOp?_eq_none_mono {least most : Nat} {tokens : List Located} (le : least ≤ most)
    (stops : infixOp? least tokens = none) : infixOp? most tokens = none := by
  cases found : infixOp? most tokens with
  | none => rfl
  | some next =>
      obtain ⟨tight, offset, rfl⟩ := infixOp?_eq_some.1 found
      simp [infixOp?, Nat.le_trans le tight] at stops

theorem precedence_le_of_infixOp? {level offset : Nat} {op : InfixOp} {behind : List Located}
    (stops : infixOp? (level + 1) (⟨.operator op, offset⟩ :: behind) = none) :
    op.precedence ≤ level := by
  have loose : ¬ level + 1 ≤ op.precedence := fun tight => by simp [infixOp?, tight] at stops
  omega

/-- No operator binds more tightly than level 6. -/
theorem infixOp?_operand (tokens : List Located) : infixOp? 8 tokens = none := by
  cases found : infixOp? 8 tokens with
  | none => rfl
  | some next =>
      obtain ⟨tight, -⟩ := infixOp?_eq_some.1 found
      cases h : next.1 <;> simp [h, InfixOp.precedence] at tight

/-- The tokens that were read derive the expression. -/
def DerivedOperand (tokens : List Located) (e : Expression) (rest : List Located) : Prop :=
  ∃ used, tokens = used ++ rest ∧ Derives 7 (used.map Located.token) e

/-- The left side and the tokens that were read derive the expression. The left side may be of any
    level that binds at least as tightly as asked, as long as no operator of a tighter level
    follows: such an operator would belong to its last operand. -/
def DerivedChain (least : Nat) (left : Expression) (tokens : List Located) (e : Expression)
    (rest : List Located) : Prop :=
  ∀ ⦃level front⦄, least ≤ level → Derives level front left →
    infixOp? (level + 1) tokens = none →
    infixOp? least rest = none ∧
      ∃ used, tokens = used ++ rest ∧ Derives least (front ++ used.map Located.token) e

theorem DerivedOperand.chain {least : Nat} {tokens behind rest : List Located}
    {first e : Expression} (low : least ≤ 7) (read : DerivedOperand tokens first behind)
    (extended : DerivedChain least first behind e rest) :
    infixOp? least rest = none ∧
      ∃ used, tokens = used ++ rest ∧ Derives least (used.map Located.token) e := by
  obtain ⟨front, rfl, d⟩ := read
  obtain ⟨stops, used, rfl, d⟩ := extended low d (infixOp?_operand _)
  exact ⟨stops, front ++ used, by simp, by simpa using d⟩

theorem operand_climb_sound (room : Nat) :
    (∀ {tokens e rest}, operand .folding room tokens = .ok (e, rest) →
      DerivedOperand tokens e rest) ∧
    (∀ {least left tokens e rest}, climb .folding room least left tokens = .ok (e, rest) →
      DerivedChain least left tokens e rest) := by
  apply ok_induction (fun _ => DerivedOperand) (fun _ => DerivedChain)
  case ofAtom => exact fun _ read => atom_sound read
  case ofPrefix =>
    intro _ _ _ _ _ _ found read
    obtain ⟨used, rfl, d⟩ := read
    obtain ⟨t, rfl, d⟩ := prefixOp?_sound found d
    exact ⟨t :: used, rfl, d⟩
  case ofParens =>
    intro _ offset _ _ _ _ offset' _ read extended
    obtain ⟨-, used, rfl, d⟩ := read.chain (by decide) extended
    exact ⟨⟨.openParen, offset⟩ :: used ++ [⟨.closeParen, offset'⟩], by simp,
      by simpa using d.parenthesized⟩
  case ofStop =>
    intro _ _ _ _ stops _ _ low d _
    exact ⟨stops, [], rfl, by simpa using d.loosen low⟩
  case ofStep =>
    intro _ least left tokens op behind _ _ right onward e rest found read chained extended
      level front low d noTighter
    obtain ⟨tight, offset, rfl⟩ := infixOp?_eq_some.1 found
    have bound : op.precedence ≤ level := precedence_le_of_infixOp? noTighter
    obtain ⟨noLater, used, rfl, dr⟩ := read.chain (by cases op <;> decide) chained
    have folded := Derives.infixed (mem_operators_iff.2 rfl) (d.loosen bound) dr
    obtain ⟨stops, used', rfl, d⟩ := extended tight folded noLater
    exact ⟨stops, ⟨.operator op, offset⟩ :: used ++ used', by simp, by simpa using d⟩

theorem expression_sound {room : Nat} {tokens rest : List Located} {e : Expression}
    (h : expression .folding room tokens = .ok (e, rest)) :
    ∃ used, tokens = used ++ rest ∧ Derives 1 (used.map Located.token) e := by
  cases room with
  | zero => cases h
  | succ room =>
      obtain ⟨first, behind, read, extended⟩ := chain_eq_ok.1 h
      have sound := operand_climb_sound room
      exact ((sound.1 read).chain (by decide) (sound.2 extended)).2

end Parser

end DecisionTable
