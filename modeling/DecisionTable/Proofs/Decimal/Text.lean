import DecisionTable.Decimal.Reader
import DecisionTable.Decimal.Text
import DecisionTable.Proofs.Decimal.Nearest
import Mathlib.Data.List.TakeWhile

/-! # Reading what is written

A decimal that is written with its point at its place is a numeral, digits with at most one point
behind the first of them, and a numeral is read as the decimal it spells (`read?_positional`).
-/

namespace DecisionTable

namespace Decimal

/-- `Numeral text d`: the text is digits, at most one point behind the first of them, and spells
    the decimal. -/
inductive Numeral : List Char → Decimal → Prop where
  | whole {digits} (some : digits ≠ []) (all : ∀ c ∈ digits, c.isDigit = true) :
      Numeral digits ⟨natOfDigits digits, 0⟩
  | point {whole fraction} (some : whole ≠ []) (all : ∀ c ∈ whole, c.isDigit = true)
      (all' : ∀ c ∈ fraction, c.isDigit = true) :
      Numeral (whole ++ '.' :: fraction) ⟨natOfDigits (whole ++ fraction), -fraction.length⟩

namespace Numeral

variable {text : List Char} {d : Decimal}

theorem exists_cons (numeral : Numeral text d) :
    ∃ c rest, text = c :: rest ∧ c.isDigit = true := by
  cases numeral with
  | whole some all =>
      obtain ⟨c, rest, rfl⟩ := List.exists_cons_of_ne_nil some
      exact ⟨c, rest, rfl, all c List.mem_cons_self⟩
  | point some all _ =>
      obtain ⟨c, rest, rfl⟩ := List.exists_cons_of_ne_nil some
      exact ⟨c, rest ++ _, rfl, all c List.mem_cons_self⟩

theorem isDigit_or (numeral : Numeral text d) :
    ∀ c ∈ text, (c.isDigit || c == '.') = true := by
  intro c mem
  cases numeral with
  | whole _ all => simp [all c mem]
  | point _ all all' =>
      rcases List.mem_append.1 mem with mem | mem
      · simp [all c mem]
      · rcases List.mem_cons.1 mem with rfl | mem
        · rfl
        · simp [all' c mem]

theorem unsigned?_eq (numeral : Numeral text d) : unsigned? text = some d := by
  cases numeral with
  | whole some all =>
      simp [unsigned?, List.takeWhile_eq_self_iff.2 all, List.dropWhile_eq_nil_iff.2 all, some,
        exponent?]
  | point some all all' =>
      simp [unsigned?, List.takeWhile_append_of_pos all, List.dropWhile_append_of_pos all,
        List.takeWhile_eq_self_iff.2 all', List.dropWhile_eq_nil_iff.2 all', some, exponent?]

end Numeral

theorem toLower_of_isDigit {c : Char} (digit : c.isDigit = true) : c.toLower = c := by
  simp only [Char.isDigit, Bool.and_eq_true, decide_eq_true_eq, UInt32.le_iff_toNat_le] at digit
  unfold Char.toLower
  split
  · rename_i upper
    have := UInt32.le_iff_toNat_le.1 upper.1
    simp at *
    omega
  · rfl

theorem magnitude?_of_isDigit {c : Char} (digit : c.isDigit = true) (negative : Bool)
    (rest : List Char) :
    magnitude? negative (c :: rest) = (unsigned? (c :: rest)).map (nearest negative) := by
  have other : ∀ d text, d.isDigit = false →
      String.ofList ((c :: rest).map Char.toLower) ≠ String.ofList (d :: text) := by
    intro d text letter same
    have := String.ofList_injective same
    rw [List.map_cons, toLower_of_isDigit digit] at this
    obtain ⟨rfl, -⟩ := List.cons.inj this
    simp [letter] at digit
  have inf : String.ofList ((c :: rest).map Char.toLower) ≠ "inf" := other 'i' ['n', 'f'] rfl
  have infinity : String.ofList ((c :: rest).map Char.toLower) ≠ "infinity" :=
    other 'i' ['n', 'f', 'i', 'n', 'i', 't', 'y'] rfl
  have nan : String.ofList ((c :: rest).map Char.toLower) ≠ "nan" := other 'n' ['a', 'n'] rfl
  simp only [magnitude?, inf, infinity, nan, decide_false, Bool.or_self, Bool.false_eq_true,
    ↓reduceIte]

theorem Numeral.read?_eq {text : List Char} {d : Decimal} (numeral : Numeral text d) :
    read? text = some (d.nearest false) := by
  obtain ⟨c, rest, rfl, digit⟩ := numeral.exists_cons
  have unsigned : read? (c :: rest) = magnitude? false (c :: rest) := by
    unfold read?
    split <;> rename_i eq
    · cases eq
      cases digit
    · cases eq
      cases digit
    · rfl
  rw [unsigned, magnitude?_of_isDigit digit, numeral.unsigned?_eq, Option.map_some]

theorem natOfDigits_replicate_append (count : Nat) (digits : List Char) :
    natOfDigits (List.replicate count '0' ++ digits) = natOfDigits digits := by
  rw [natOfDigits, Nat.ofDigitChars_append, Nat.ofDigitChars_replicate_zero, Nat.mul_zero,
    natOfDigits]

theorem numeral_ofNat (digits e : Nat) :
    Numeral (positional false ⟨digits, .ofNat e⟩) ⟨digits * 10 ^ e, 0⟩ := by
  have text : positional false ⟨digits, .ofNat e⟩ =
      Nat.toDigits 10 digits ++ List.replicate e '0' := by simp [positional]
  have value : natOfDigits (Nat.toDigits 10 digits ++ List.replicate e '0') = digits * 10 ^ e := by
    rw [natOfDigits, Nat.ofDigitChars_append, Nat.ofDigitChars_ten_toDigits,
      Nat.ofDigitChars_replicate_zero, Nat.mul_comm]
  rw [text, ← value]
  refine .whole (by simp [Nat.toDigits_ne_nil]) fun c mem => ?_
  rcases List.mem_append.1 mem with mem | mem
  · exact Nat.isDigit_of_mem_toDigits (by decide) (by decide) mem
  · rw [List.eq_of_mem_replicate mem]
    rfl

/-- Zeros are written before the digits where the point would stand before them. -/
theorem numeral_negSucc (digits e : Nat) :
    Numeral (positional false ⟨digits, .negSucc e⟩) ⟨digits, .negSucc e⟩ := by
  let padded := List.replicate (e + 2 - (Nat.toDigits 10 digits).length) '0' ++
    Nat.toDigits 10 digits
  let whole := padded.length - (e + 1)
  have text : positional false ⟨digits, .negSucc e⟩ =
      padded.take whole ++ '.' :: padded.drop whole := rfl
  have long : e + 2 ≤ padded.length := by
    simp only [padded, List.length_append, List.length_replicate]
    omega
  have value : natOfDigits (padded.take whole ++ padded.drop whole) = digits := by
    rw [List.take_append_drop, natOfDigits_replicate_append, natOfDigits,
      Nat.ofDigitChars_ten_toDigits]
  have places : (-(padded.drop whole).length : Int) = .negSucc e := by
    rw [List.length_drop]
    omega
  have all : ∀ c ∈ padded, c.isDigit = true := by
    intro c mem
    rcases List.mem_append.1 mem with mem | mem
    · rw [List.eq_of_mem_replicate mem]
      rfl
    · exact Nat.isDigit_of_mem_toDigits (by decide) (by decide) mem
  have some : padded.take whole ≠ [] := by
    rw [← List.length_pos_iff, List.length_take]
    omega
  have fraction : ∀ c ∈ padded.drop whole, c.isDigit = true := fun c mem =>
    all c (List.mem_of_mem_drop mem)
  have := Numeral.point some (fun c mem => all c (List.mem_of_mem_take mem)) fraction
  rwa [value, places] at this

/-- What is written with the point at its place is a numeral of the same value. -/
theorem exists_numeral (d : Decimal) :
    ∃ d', Numeral (d.positional false) d' ∧ d'.nearest false = d.nearest false := by
  obtain ⟨digits, exponent⟩ := d
  cases exponent with
  | ofNat e =>
      refine ⟨_, numeral_ofNat digits e, nearest_scale Nat.one_pos ?_ rfl false⟩
      show digits * 10 ^ e * 10 ^ 0 * unitsPerOne = 1 * (digits * 10 ^ e * unitsPerOne)
      rw [Nat.pow_zero, Nat.mul_one, Nat.one_mul]
  | negSucc e => exact ⟨_, numeral_negSucc digits e, rfl⟩

/-- A decimal that is written with the point at its place is read as its nearest double. -/
theorem read?_positional (d : Decimal) :
    read? (d.positional false) = some (d.nearest false) := by
  obtain ⟨d', numeral, same⟩ := exists_numeral d
  rw [numeral.read?_eq, same]

end Decimal

end DecisionTable
