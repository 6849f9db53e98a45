import DecisionTable.Formula.Parser

/-! # The grammar of expressions

The grammar has a level for each group of infix operators that bind alike, from `||` at
level 1 to `* / %` at level 6, and level 7 for operands. An operator takes its own level on
its left and the next one on its right, so chains lean to the left. `Derives` says which
tokens are which expression at a level; it knows nothing of how they are parsed, and has no
bound on nesting.
-/

namespace DecisionTable

namespace Grammar

/-- The infix operators of a level. -/
def operators : Nat → List InfixOp
  | 1 => [.or]
  | 2 => [.and]
  | 3 => [.equal, .notEqual, .strictEqual, .strictNotEqual]
  | 4 => [.less, .lessEqual, .greater, .greaterEqual]
  | 5 => [.add, .sub]
  | 6 => [.mul, .div, .rem]
  | _ => []

/-- The words that are constants, with their values. -/
def constants : List (String × Json) :=
  [("true", .bool true), ("false", .bool false), ("null", .null), ("undefined", .null)]

/-- The members behind the head of a path, and the names they stand for. -/
inductive Accesses : List Token → List String → Prop where
  | nil : Accesses [] []
  | named {name tokens names} (others : Accesses tokens names) :
      Accesses (.dot :: .word name :: tokens) (name :: names)
  | keyed {key tokens names} (others : Accesses tokens names) :
      Accesses (.openBracket :: .string key :: .closeBracket :: tokens) (key :: names)
  /-- An index is a whole number; from 2⁶⁴ on it counts as the largest one of 64 bits. -/
  | indexed {x n tokens names} (whole : x.wholeNat? = some n) (others : Accesses tokens names) :
      Accesses (.openBracket :: .number x :: .closeBracket :: tokens)
        (toString (min n (UInt64.size - 1)) :: names)

/-- `Derives level tokens e`: the tokens are the expression `e`, whose infix operators outside
    parentheses are of that level or a tighter one. -/
inductive Derives : Nat → List Token → Expression → Prop where
  | tighter {level tokens e} (d : Derives (level + 1) tokens e) : Derives level tokens e
  | infixed {level op front behind left right} (belongs : op ∈ operators level)
      (dl : Derives level front left) (dr : Derives (level + 1) behind right) :
      Derives level (front ++ .operator op :: behind) (.infixed op left right)
  | not {tokens e} (d : Derives 7 tokens e) : Derives 7 (.bang :: tokens) (.prefixed .not e)
  /-- A minus before what is a number literal makes the opposite literal. -/
  | opposite {tokens n} (d : Derives 7 tokens (.literal (.number n))) :
      Derives 7 (.operator .sub :: tokens) (.literal (.ofBinary64 (-n.toBinary64)))
  | negate {tokens e} (d : Derives 7 tokens e) (other : ∀ n, e ≠ .literal (.number n)) :
      Derives 7 (.operator .sub :: tokens) (.prefixed .negate e)
  | number {x} : Derives 7 [.number x] (.literal (.ofBinary64 x))
  | string {text} : Derives 7 [.string text] (.literal (.string text))
  | constant {name value} (known : (name, value) ∈ constants) :
      Derives 7 [.word name] (.literal value)
  | this {first others tokens} (accesses : Accesses tokens (first :: others)) :
      Derives 7 (.word "this" :: tokens) (.field ⟨first, others⟩)
  | path {first others tokens} (notConstant : first ∉ constants.map Prod.fst)
      (notThis : first ≠ "this") (accesses : Accesses tokens others) :
      Derives 7 (.word first :: tokens) (.field ⟨first, others⟩)
  | parenthesized {tokens e} (d : Derives 1 tokens e) :
      Derives 7 (.openParen :: tokens ++ [.closeParen]) e

theorem mem_operators_iff {op : InfixOp} {level : Nat} :
    op ∈ operators level ↔ op.precedence = level := by
  constructor
  · intro belongs
    unfold operators at belongs
    split at belongs <;> cases op <;> simp_all [InfixOp.precedence]
  · rintro rfl
    cases op <;> simp [operators, InfixOp.precedence]

theorem Derives.ne_nil {level : Nat} {tokens : List Token} {e : Expression}
    (d : Derives level tokens e) : tokens ≠ [] := by
  induction d with
  | tighter _ ih => exact ih
  | _ => simp

theorem Derives.level_le {level : Nat} {tokens : List Token} {e : Expression}
    (d : Derives level tokens e) : level ≤ 7 := by
  induction d with
  | tighter _ ih => omega
  | infixed _ _ _ _ ih => omega
  | _ => exact Nat.le_refl 7

/-- An expression at a level is one at every looser level. -/
theorem Derives.loosen {level looser : Nat} {tokens : List Token} {e : Expression}
    (le : looser ≤ level) (d : Derives level tokens e) : Derives looser tokens e := by
  induction le with
  | refl => exact d
  | step _ ih => exact ih d.tighter

end Grammar

end DecisionTable
