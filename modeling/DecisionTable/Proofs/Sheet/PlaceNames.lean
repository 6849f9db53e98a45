import DecisionTable.Proofs.Sheet.ColumnNames
import DecisionTable.Sheet.Error
import Mathlib

/-! # Names of places

A place is called by the letters of its column and the decimal number of its row, which counts
from one. The letters end where the digits begin, so the place can be read back from its name
(`Position.ofText?_eq_some_iff`). The number of a row has 32 bits like the row, and the last of
all rows has no number there: it is called 0.
-/

namespace DecisionTable

theorem toNat_rowNumber_iff (row : UInt32) :
    (rowNumber row).toNat = row.toNat + 1 ↔ row < 4294967295 := by
  have bound := row.toNat_lt
  have largest : (4294967295 : UInt32).toNat = 4294967295 := rfl
  rw [rowNumber, UInt32.toNat_add, UInt32.toNat_one, UInt32.lt_iff_toNat_lt, largest]
  omega

theorem rowNumber_inj {row row' : UInt32} : rowNumber row = rowNumber row' ↔ row = row' :=
  UInt32.add_left_inj 1

/-- A number is known by its digits. -/
theorem toDigits_inj {n m : Nat} : Nat.toDigits 10 n = Nat.toDigits 10 m ↔ n = m := by
  rw [← Nat.repr_inj, Nat.repr_eq_ofList_toDigits, Nat.repr_eq_ofList_toDigits, String.ofList_inj]

/-- Whether a character is one of the letters of columns. -/
def isColumnLetter (c : Char) : Bool := 'A' ≤ c && c ≤ 'Z'

theorem isColumnLetter_of_mem {n : Nat} {c : Char} (mem : c ∈ columnLetters n) :
    isColumnLetter c = true := by
  have known := mem_columnLetters n c mem
  simp [isColumnLetter, known.1, known.2]

theorem not_isColumnLetter_of_isDigit {c : Char} (digit : c.isDigit = true) :
    isColumnLetter c = false := by
  simp only [Char.isDigit, Bool.and_eq_true, decide_eq_true_eq] at digit
  have below : c < 'A' := UInt32.lt_of_le_of_lt digit.2 (by decide)
  simp [isColumnLetter, below]

namespace Position

theorem toList_text (p : Position) : p.text.toList =
    columnLetters (p.column.toNat + 1) ++ Nat.toDigits 10 (rowNumber p.row).toNat := by
  have parts : p.text = columnName p.column ++ (rowNumber p.row).toNat.repr := rfl
  rw [parts, String.toList_append, toList_columnName, Nat.repr_eq_ofList_toDigits,
    String.toList_ofList]

/-- The letters of a name are its front without digits. -/
theorem takeWhile_toList_text (p : Position) :
    p.text.toList.takeWhile isColumnLetter = columnLetters (p.column.toNat + 1) ∧
      p.text.toList.dropWhile isColumnLetter = Nat.toDigits 10 (rowNumber p.row).toNat := by
  have letters (c) (mem : c ∈ columnLetters (p.column.toNat + 1)) := isColumnLetter_of_mem mem
  obtain ⟨c, rest, digits⟩ :=
    List.exists_cons_of_ne_nil (Nat.toDigits_ne_nil (b := 10) (n := (rowNumber p.row).toNat))
  have first : isColumnLetter c = false :=
    not_isColumnLetter_of_isDigit (Nat.isDigit_of_mem_toDigits (by decide) (by decide)
      (digits ▸ List.mem_cons_self))
  rw [toList_text, List.takeWhile_append_of_pos letters, List.dropWhile_append_of_pos letters,
    digits, List.takeWhile_cons_of_neg (by simp [first]), List.append_nil,
    List.dropWhile_cons_of_neg (by simp [first])]
  exact ⟨rfl, rfl⟩

theorem text_inj {p q : Position} : p.text = q.text ↔ p = q := by
  refine ⟨fun same => ?_, congrArg _⟩
  obtain ⟨letters, digits⟩ := p.takeWhile_toList_text
  obtain ⟨letters', digits'⟩ := q.takeWhile_toList_text
  rw [same] at letters digits
  have column : p.column.toNat + 1 = q.column.toNat + 1 := by
    rw [← lettersValue_columnLetters (p.column.toNat + 1), ← letters, letters',
      lettersValue_columnLetters]
  have row := toDigits_inj.1 (digits.symm.trans digits')
  exact congrArg₂ Position.mk (rowNumber_inj.1 (UInt32.toNat_inj.1 row))
    (UInt32.toNat_inj.1 (Nat.succ.inj column))

/-- The place of a name: its letters are read as a column, and its digits as a row. -/
def ofText? (text : String) : Option Position :=
  let letters := text.toList.takeWhile isColumnLetter
  let digits := text.toList.dropWhile isColumnLetter
  let column := lettersValue letters
  let row := Nat.ofDigitChars 10 digits 0
  if 0 < column ∧ column ≤ 4294967296 ∧ 0 < row ∧ row ≤ 4294967295 ∧
      Nat.toDigits 10 row = digits then
    some ⟨.ofNat (row - 1), .ofNat (column - 1)⟩
  else none

theorem ofText?_text {p : Position} (inner : p.row < 4294967295) : ofText? p.text = some p := by
  obtain ⟨letters, digits⟩ := p.takeWhile_toList_text
  have number := (toNat_rowNumber_iff p.row).2 inner
  have column := p.column.toNat_lt
  have row := UInt32.lt_iff_toNat_lt.1 inner
  rw [ofText?]
  simp only [letters, digits, lettersValue_columnLetters, Nat.ofDigitChars_ten_toDigits, number]
  rw [if_pos ⟨Nat.succ_pos _, column, Nat.succ_pos _, row, trivial⟩]
  simp

/-- Letters and digits that are read as a place are its name. -/
theorem text_of_ofText? {text : String} {p : Position} (read : ofText? text = some p) :
    p.text = text ∧ p.row < 4294967295 := by
  rw [ofText?] at read
  simp only [Option.ite_none_right_eq_some, Option.some.injEq] at read
  obtain ⟨⟨some, columns, counted, rows, canonical⟩, rfl⟩ := read
  have known : ∀ l ∈ text.toList.takeWhile isColumnLetter, 'A' ≤ l ∧ l ≤ 'Z' := by
    intro l mem
    simpa [isColumnLetter] using List.all_eq_true.1 List.all_takeWhile l mem
  have parts := List.takeWhile_append_dropWhile (p := isColumnLetter) (l := text.toList)
  generalize text.toList.takeWhile isColumnLetter = letters at *
  generalize text.toList.dropWhile isColumnLetter = digits at *
  have column : (UInt32.ofNat (lettersValue letters - 1)).toNat + 1 = lettersValue letters := by
    rw [UInt32.toNat_ofNat_of_lt' (Nat.lt_of_lt_of_le (Nat.sub_lt some Nat.one_pos) columns)]
    exact Nat.sub_add_cancel some
  have row : (UInt32.ofNat (Nat.ofDigitChars 10 digits 0 - 1)).toNat + 1 =
      Nat.ofDigitChars 10 digits 0 := by
    rw [UInt32.toNat_ofNat_of_lt' (Nat.lt_succ_of_le (Nat.le_trans (Nat.sub_le _ _) rows))]
    exact Nat.sub_add_cancel counted
  have inner : UInt32.ofNat (Nat.ofDigitChars 10 digits 0 - 1) < 4294967295 := by
    rw [UInt32.lt_iff_toNat_lt]
    exact Nat.lt_of_lt_of_le (Nat.lt_of_lt_of_eq (Nat.lt_succ_self _) row) rows
  refine ⟨?_, inner⟩
  rw [← String.toList_inj, toList_text, column, columnLetters_lettersValue known,
    (toNat_rowNumber_iff _).2 inner, row, canonical, parts]

theorem ofText?_eq_some_iff {text : String} {p : Position} :
    ofText? text = some p ↔ p.text = text ∧ p.row < 4294967295 :=
  ⟨text_of_ofText?, fun ⟨name, inner⟩ => name ▸ ofText?_text inner⟩

end Position

end DecisionTable
