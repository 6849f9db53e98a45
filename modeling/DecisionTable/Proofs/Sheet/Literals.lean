import DecisionTable.Proofs.Formula.Completeness
import DecisionTable.Proofs.Formula.Spelling
import DecisionTable.Proofs.Json.Number
import DecisionTable.Sheet.Grid

/-! # Cells as literals

A number or a truth value that is put into a template is read there as the literal of its value.
The text of a number that is not negative is one token. A negative number is two, and the grammar
makes one literal of them. The literal counts as the cell's number but for the sign of a zero, so
it has the same text.
-/

namespace DecisionTable

open Grammar

/-- A text of few tokens is read as the expression that they derive. -/
theorem Expression.parse_of_derives {text : List Char} {ts : List Token} {e : Expression}
    (spells : Lexer.Spells text ts) (noBreak : .newline ∉ ts) (few : ts.length < maxDepth)
    (d : Derives 1 ts e) : parse (String.ofList text) = .ok e := by
  obtain ⟨located, found, rfl⟩ := spells 0
  have kept : significant located = located.map Located.token := by
    apply List.filter_eq_self.2
    intro t mem
    exact bne_iff_ne.2 fun eq => noBreak (eq ▸ mem)
  rw [← kept] at d few
  rw [parse, tokenize, String.toList_ofList, found]
  rcases ofTokens_complete d with read | ⟨-, many⟩
  · exact read
  · omega

theorem Binary64.text_plain (x : Finite64) : (finite x.plain).text = (finite x).text := by
  cases whole : x.exactInt? with
  | none => rw [Finite64.plain_eq (Finite64.rank_ne_zero_of_exactInt? whole)]
  | some n =>
      have whole' := (Finite64.exactInt?_plain x).trans whole
      simp [text, exactInt?, whole, whole']

theorem Json.render_ofBinary64 (x : Finite64) :
    (ofBinary64 (.finite x)).render = (Binary64.finite x).text := by
  obtain ⟨n, value, double⟩ := exists_ofBinary64 x
  rw [value, render, double, Binary64.text_plain]

namespace Grammar

/-- A minus and the literal of a magnitude are the literal of the negative number. -/
theorem derives_negative (x : Finite64) :
    Derives 7 [.operator .sub, .number (.finite { x with negative := false })]
      (.literal (.ofBinary64 (.finite { x with negative := true }))) := by
  obtain ⟨n, value, double⟩ := Json.exists_ofBinary64 { x with negative := false }
  have magnitude : Derives 7 [.number (.finite { x with negative := false })]
      (.literal (.number n)) := value ▸ .number
  have opposite := magnitude.opposite
  rw [double] at opposite
  exact opposite

/-- The text of a number is cut into one or two tokens, and these derive its literal. -/
theorem exists_derives_text (x : Finite64) : ∃ ts,
    Lexer.Spells (Binary64.finite x).text.toList ts ∧ .newline ∉ ts ∧ ts.length ≤ 2 ∧
      Derives 7 ts (.literal (.ofBinary64 (.finite x))) := by
  obtain ⟨d, text, nearest⟩ := Binary64.exists_text x
  obtain ⟨d', numeral, same⟩ := d.exists_numeral
  have digits := Lexer.spells_numeral numeral
  rw [same, nearest] at digits
  rw [text, ← Json.ofBinary64_plain]
  cases sign : x.plain.negative with
  | false =>
      have plain : x.plain = { x with negative := false } := by rw [← sign]; rfl
      exact ⟨_, digits, by simp, by simp, plain ▸ .number⟩
  | true =>
      have plain : x.plain = { x with negative := true } := by rw [← sign]; rfl
      exact ⟨_, digits.token rfl, by simp, by simp, plain ▸ derives_negative x⟩

/-- The text of a truth value is one token, a word that is a constant. -/
theorem exists_derives_bool (value : Bool) : ∃ name,
    Lexer.Spells (CellValue.bool value).render.toList [.word name] ∧
      Derives 7 [.word name] (.literal (.bool value)) := by
  cases value with
  | false => exact ⟨"false", Lexer.spells_nil.token rfl, .constant (by simp [constants])⟩
  | true => exact ⟨"true", Lexer.spells_nil.token rfl, .constant (by simp [constants])⟩

end Grammar

/-- A number or a truth value in a cell is read from its text as the literal of its value, and the
    text of the number that is read is the cell's text again. -/
theorem CellValue.parse_render (x : Finite64) (value : Bool) :
    Expression.parse (number (.finite x)).render = .ok (.literal (.ofBinary64 (.finite x))) ∧
      (Json.ofBinary64 (.finite x)).render = (number (.finite x)).render ∧
      Expression.parse (bool value).render = .ok (.literal (.bool value)) := by
  refine ⟨?number, Json.render_ofBinary64 x, ?bool⟩
  case number =>
    obtain ⟨ts, spells, noBreak, few, d⟩ := exists_derives_text x
    have short : ts.length < maxDepth := Nat.lt_of_le_of_lt few (by decide)
    have read := Expression.parse_of_derives spells noBreak short (d.loosen (by decide))
    rwa [String.ofList_toList] at read
  case bool =>
    obtain ⟨name, spells, d⟩ := exists_derives_bool value
    have short : 1 < maxDepth := by decide
    have read := Expression.parse_of_derives spells (by simp) short (d.loosen (by decide))
    rwa [String.ofList_toList] at read

end DecisionTable
