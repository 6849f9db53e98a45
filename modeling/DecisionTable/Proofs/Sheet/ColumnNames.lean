import DecisionTable.Sheet.Position
import Mathlib.Data.List.Induction
import Mathlib.Data.List.Shortlex

/-! # Names of columns

The names of columns are the numerals of a base 26 without a zero digit: A counts as 1 and Z as
26. Each word of such letters is the numeral of one number (`columnLetters_lettersValue`), and
shorter words, and among words of one length those that come first in the alphabet, have the
smaller values. So columns have the order of their names (`columnName_numeral`).
-/

namespace DecisionTable

/-- What a letter counts as a digit. -/
def letterValue (letter : Char) : Nat := letter.toNat - 'A'.toNat + 1

/-- The number that letters spell, the highest digit first. -/
def lettersValue (letters : List Char) : Nat :=
  letters.foldl (fun value letter => 26 * value + letterValue letter) 0

/-- The letters of a column, by its number plus one. -/
def columnLetters (n : Nat) : List Char := (columnLettersReversed n).reverse

theorem columnLetters_zero : columnLetters 0 = [] := by
  rw [columnLetters, columnLettersReversed, if_pos rfl, List.reverse_nil]

/-- The last digit counts from 1, so the letter is that of the digit less one. -/
theorem columnLetters_digit (q : Nat) {r : Nat} (digit : r < 26) :
    columnLetters (26 * q + r + 1) = columnLetters q ++ [Char.ofNat ('A'.toNat + r)] := by
  have remainder : (26 * q + r) % 26 = r := by omega
  have quotient : (26 * q + r) / 26 = q := by omega
  rw [columnLetters, columnLettersReversed, if_neg (Nat.succ_ne_zero _), Nat.add_sub_cancel,
    remainder, quotient, List.reverse_cons, columnLetters]

/-- Every number is zero or has a last digit and a smaller number before it. -/
theorem digit_induction {P : Nat → Prop} (zero : P 0)
    (digit : ∀ q r, r < 26 → P q → P (26 * q + r + 1)) (n : Nat) : P n := by
  induction n using Nat.strongRecOn with
  | ind n ih =>
      cases n with
      | zero => exact zero
      | succ n =>
          have split : 26 * (n / 26) + n % 26 + 1 = n + 1 := by rw [Nat.div_add_mod]
          rw [← split]
          exact digit _ _ (Nat.mod_lt _ (by decide)) (ih _ (by omega))

/-! ## Letters and digits -/

theorem letter_digit {r : Nat} (digit : r < 26) :
    ('A' ≤ Char.ofNat ('A'.toNat + r) ∧ Char.ofNat ('A'.toNat + r) ≤ 'Z') ∧
      letterValue (Char.ofNat ('A'.toNat + r)) = r + 1 := by
  decide +revert

theorem letter_lt {r s : Nat} (lt : r < s) (digit : s < 26) :
    Char.ofNat ('A'.toNat + r) < Char.ofNat ('A'.toNat + s) := by
  have letters : ∀ s < 26, ∀ r < s, Char.ofNat ('A'.toNat + r) < Char.ofNat ('A'.toNat + s) := by
    decide
  exact letters s digit r lt

theorem exists_digit {letter : Char} (known : 'A' ≤ letter ∧ letter ≤ 'Z') :
    ∃ r < 26, letter = Char.ofNat ('A'.toNat + r) := by
  have least : 'A'.toNat ≤ letter.toNat := known.1
  have most : letter.toNat ≤ 'Z'.toNat := known.2
  refine ⟨letter.toNat - 'A'.toNat, ?_, ?_⟩
  · exact Nat.lt_of_le_of_lt (Nat.sub_le_sub_right most _) (by decide)
  · rw [Nat.add_sub_cancel' least, Char.ofNat_toNat]

/-! ## Numbers and words -/

theorem lettersValue_concat (letters : List Char) (letter : Char) :
    lettersValue (letters ++ [letter]) = 26 * lettersValue letters + letterValue letter := by
  rw [lettersValue, List.foldl_append, List.foldl_cons, List.foldl_nil, lettersValue]

theorem mem_columnLetters (n : Nat) : ∀ l ∈ columnLetters n, 'A' ≤ l ∧ l ≤ 'Z' := by
  induction n using digit_induction with
  | zero => simp [columnLetters_zero]
  | digit q r digit ih =>
      rw [columnLetters_digit q digit, List.forall_mem_append]
      exact ⟨ih, List.forall_mem_singleton.2 (letter_digit digit).1⟩

theorem lettersValue_columnLetters (n : Nat) : lettersValue (columnLetters n) = n := by
  induction n using digit_induction with
  | zero => rw [columnLetters_zero]; rfl
  | digit q r digit ih =>
      rw [columnLetters_digit q digit, lettersValue_concat, ih, (letter_digit digit).2,
        Nat.add_assoc]

theorem columnLetters_lettersValue {word : List Char} (known : ∀ l ∈ word, 'A' ≤ l ∧ l ≤ 'Z') :
    columnLetters (lettersValue word) = word := by
  induction word using List.reverseRecOn with
  | nil => exact columnLetters_zero
  | append_singleton word letter ih =>
      obtain ⟨before, last⟩ := List.forall_mem_append.1 known
      obtain ⟨r, digit, rfl⟩ := exists_digit (last letter (List.mem_singleton_self _))
      rw [lettersValue_concat, (letter_digit digit).2, ← Nat.add_assoc,
        columnLetters_digit _ digit, ih before]

/-! ## The order of names -/

theorem shortlex_concat {u v : List Char} (before : List.Shortlex (· < ·) u v) (a b : Char) :
    List.Shortlex (· < ·) (u ++ [a]) (v ++ [b]) := by
  rcases List.shortlex_def.1 before with shorter | ⟨same, lex⟩
  · exact .of_length_lt (by simpa using shorter)
  · refine .of_lex (by simpa using same) ?_
    clear before
    induction lex with
    | nil => cases same
    | rel lt => exact .rel lt
    | cons _ ih => exact .cons (ih (by simpa using same))

theorem shortlex_columnLetters {n m : Nat} (lt : n < m) :
    List.Shortlex (· < ·) (columnLetters n) (columnLetters m) := by
  induction m using digit_induction generalizing n with
  | zero => cases lt
  | digit q r digit ih =>
      rw [columnLetters_digit q digit]
      cases n using digit_induction with
      | zero =>
          rw [columnLetters_zero]
          exact .of_length_lt (by simp)
      | digit q' r' digit' =>
          rw [columnLetters_digit q' digit']
          -- The digits before the last are those of a smaller number, or the same.
          by_cases smaller : q' < q
          · exact shortlex_concat (ih smaller) _ _
          · obtain ⟨rfl, less⟩ : q' = q ∧ r' < r := by omega
            exact .append_left ((List.shortlex_singleton_iff _ _).2 (letter_lt less digit)) _

theorem toList_columnName (c : UInt32) : (columnName c).toList = columnLetters (c.toNat + 1) :=
  String.toList_ofList

/-- The name of a column is the one word of the letters A to Z whose value is the column's number
    plus one. Columns have the order of their names, in which shorter names come first. -/
theorem columnName_numeral (c : UInt32) :
    (∀ name, columnName c = name ↔
      name ≠ "" ∧ (∀ l ∈ name.toList, 'A' ≤ l ∧ l ≤ 'Z') ∧
        lettersValue name.toList = c.toNat + 1) ∧
    ∀ d, (columnName c = columnName d ↔ c = d) ∧
      (c < d ↔ List.Shortlex (· < ·) (columnName c).toList (columnName d).toList) := by
  have value (c : UInt32) : lettersValue (columnName c).toList = c.toNat + 1 := by
    rw [toList_columnName, lettersValue_columnLetters]
  have ordered {c d : UInt32} (lt : c < d) :
      List.Shortlex (· < ·) (columnName c).toList (columnName d).toList := by
    rw [toList_columnName, toList_columnName]
    exact shortlex_columnLetters (Nat.succ_lt_succ lt)
  refine ⟨fun name => ⟨?_, ?_⟩, fun d => ⟨⟨fun same => ?_, congrArg _⟩, ordered, fun before => ?_⟩⟩
  · rintro rfl
    refine ⟨fun empty => ?_, ?_, value c⟩
    · have none := value c
      rw [empty] at none
      cases none
    · rw [toList_columnName]
      exact mem_columnLetters _
  · rintro ⟨-, known, spells⟩
    rw [← String.toList_inj, toList_columnName, ← spells, columnLetters_lettersValue known]
  · have numbers : c.toNat + 1 = d.toNat + 1 := by rw [← value c, same, value d]
    exact UInt32.toNat_inj.1 (Nat.succ.inj numbers)
  · by_contra not
    rcases UInt32.lt_or_eq_of_le (UInt32.not_lt.1 not) with greater | rfl
    · exact Std.Asymm.asymm _ _ before (ordered greater)
    · exact Std.Asymm.asymm _ _ before before

end DecisionTable
