import DecisionTable.Proofs.Decimal.Text
import DecisionTable.Proofs.Formula.Lexing

/-! # How tokens are spelled

Numerals, strings in single quotes and texts in parentheses, each for any text that may stand
behind it. A string is spelled with a backslash before each quote and backslash, and with all
other characters as they are, line breaks too.
-/

namespace DecisionTable

namespace Lexer

theorem isBlank_of_isDigit {c : Char} (digit : c.isDigit = true) : isBlank c = false := by
  simp only [isBlank, Bool.or_eq_false_iff, beq_eq_false_iff_ne]
  refine ⟨⟨⟨?_, ?_⟩, ?_⟩, ?_⟩
  · rintro rfl
    cases digit
  · rintro rfl
    cases digit
  · rintro rfl
    cases digit
  · simp only [Char.isDigit, Bool.and_eq_true, decide_eq_true_eq, UInt32.le_iff_toNat_le] at digit
    intro feed
    have : 48 ≤ c.toNat := digit.1
    omega

/-- A numeral is one token, its nearest double. -/
theorem spells_numeral {text : List Char} {d : Decimal} (numeral : Decimal.Numeral text d) :
    Spells text [.number (d.nearest false)] := by
  obtain ⟨c, rest, rfl, digit⟩ := numeral.exists_cons
  have taken : numeralPart (c :: rest) = (c :: rest, []) := by
    have mantissa : split (fun c => c.isDigit || c == '.') (c :: rest) = (c :: rest, []) :=
      Prod.ext (List.takeWhile_eq_self_iff.2 numeral.isDigit_or)
        (List.dropWhile_eq_nil_iff.2 numeral.isDigit_or)
    simp [numeralPart, mantissa, exponentPart]
  have read : scan 0 c rest = .ok ⟨c :: rest, some (.number (d.nearest false)), []⟩ := by
    simp [scan, isBlank_of_isDigit digit, startsNumber, digit, taken, numeral.read?_eq]
  exact spells_nil.token read

/-- A backslash before each character that does not stand for itself in single quotes. -/
def escaped (c : Char) : List Char := if c = '\'' ∨ c = '\\' then ['\\', c] else [c]

/-- A text in single quotes. -/
def quotation (text : String) : List Char :=
  '\'' :: (text.toList.flatMap escaped ++ ['\''])

theorem unescape_of_marked {c : Char} (marked : c = '\'' ∨ c = '\\') : unescape c = c := by
  rcases marked with rfl | rfl <;> rfl

theorem quoted?_escaped (text more : List Char) :
    quoted? '\'' (text.flatMap escaped ++ '\'' :: more) =
      some ⟨text.flatMap escaped ++ ['\''], text, more⟩ := by
  induction text with
  | nil =>
      rw [List.flatMap_nil, List.nil_append, quoted?.eq_def]
      rfl
  | cons c text ih =>
      rw [List.flatMap_cons, escaped]
      by_cases marked : c = '\'' ∨ c = '\\'
      · simp only [if_pos marked, List.cons_append, List.nil_append]
        rw [quoted?, if_neg (by decide), if_pos rfl]
        simp only [ih, Option.map_some, unescape_of_marked marked]
      · rw [if_neg marked, List.singleton_append, List.cons_append, quoted?.eq_def]
        simp only [not_or] at marked
        simp only [marked.1, marked.2, ↓reduceIte, ih, Option.map_some]
        rfl

theorem Spells.quotation {more : List Char} {ts : List Token} (spells : Spells more ts)
    (text : String) : Spells (quotation text ++ more) (.string text :: ts) := by
  have read : scan 0 '\'' (text.toList.flatMap escaped ++ '\'' :: more) =
      .ok ⟨'\'' :: (text.toList.flatMap escaped ++ ['\'']), some (.string text), more⟩ := by
    have found := quoted?_escaped text.toList more
    have starts : startsNumber '\'' (text.toList.flatMap escaped ++ '\'' :: more) = false := rfl
    simp [scan, isBlank, starts, found]
  have := spells.token read
  simpa [Lexer.quotation] using this

theorem Spells.blanks {gap more : List Char} {ts : List Token}
    (blank : ∀ c ∈ gap, isBlank c = true) (spells : Spells more ts) : Spells (gap ++ more) ts := by
  induction gap with
  | nil => exact spells
  | cons c gap ih =>
      rw [List.forall_mem_cons] at blank
      exact (ih blank.2).blank blank.1

theorem ends_of_gap {gap more : List Char} (blank : ∀ c ∈ gap, isBlank c = true)
    (apart : ∀ c ∈ more.head?, ends c = true) : ∀ c ∈ (gap ++ more).head?, ends c = true := by
  cases gap with
  | nil => exact apart
  | cons c gap => simpa using ends_of_isBlank (blank c List.mem_cons_self)

theorem spells_symbol (op : InfixOp) : Spells op.symbol.toList [.operator op] := by
  cases op <;> exact spells_nil.token rfl

theorem Spells.enclosed {text more : List Char} {ts us : List Token} (spells : Spells text ts)
    (spells' : Spells more us) :
    Spells ('(' :: (text ++ ')' :: more)) (.openParen :: (ts ++ .closeParen :: us)) :=
  (spells.append (by simp [ends, isWordRest]) (spells'.token rfl)).token rfl

end Lexer

end DecisionTable
