import DecisionTable.Decimal.Shortest
import DecisionTable.Proofs.Binary64.Rounding

/-! # The double nearest to a decimal

The exponents that `Decimal.nearest` tells apart only save work: the result is always the rounded
ratio of the decimal in units (`nearest_eq_ofUnitRatio`). Zeros that move from the digits to the
exponent do not change the ratio, and the shortest decimal of a double reads back as the double
(`nearest_shortest`).
-/

namespace DecisionTable

namespace Decimal

/-- A decimal in units of 2⁻¹⁰⁷⁴, as numerator and denominator. -/
def unitRatio (d : Decimal) : Nat × Nat :=
  match d.exponent with
  | .ofNat e => (d.digits * 10 ^ e * unitsPerOne, 1)
  | .negSucc e => (d.digits * unitsPerOne, 10 ^ (e + 1))

/-- No finite double is as large as 10³⁰⁹. -/
theorem rankCount_le_of_exponent {digits e : Nat} (nonzero : digits ≠ 0) (large : 309 ≤ e) :
    rankCount ≤ rankOfRatio (digits * 10 ^ e * unitsPerOne) 1 := by
  refine rankCount_le_rankOfRatio ?_ (Nat.le_refl 2099)
  calc 2 ^ 2099 ≤ 10 ^ 309 * unitsPerOne := by decide +kernel
    _ ≤ 10 ^ e * unitsPerOne :=
      Nat.mul_le_mul_right _ (Nat.pow_le_pow_right (by decide) large)
    _ ≤ digits * 10 ^ e * unitsPerOne :=
      Nat.mul_le_mul_right _ (Nat.le_mul_of_pos_left _ (Nat.pos_of_ne_zero nonzero))

/-- A decimal whose digits stand far enough behind the point is less than half a unit. -/
theorem rankOfRatio_of_exponent {digits e : Nat} (small : digits.log2 + 1076 ≤ 3 * e) :
    rankOfRatio (digits * unitsPerOne) (10 ^ e) = 0 := by
  refine rankOfRatio_eq_zero ?_
  have half : 2 * unitsPerOne = 2 ^ 1075 := by decide +kernel
  calc 2 * (digits * unitsPerOne) = digits * 2 ^ 1075 := by rw [Nat.mul_left_comm, half]
    _ < 2 ^ (digits.log2 + 1) * 2 ^ 1075 :=
      (Nat.mul_lt_mul_right (by decide +kernel)).2 Nat.lt_log2_self
    _ = 2 ^ (digits.log2 + 1076) := by rw [← Nat.pow_add]
    _ ≤ 2 ^ (3 * e) := Nat.pow_le_pow_right (by decide) small
    _ = (2 ^ 3) ^ e := by rw [Nat.pow_mul]
    _ ≤ 10 ^ e := Nat.pow_le_pow_left (by decide) e

/-- The double nearest to a decimal is its rounded ratio. -/
theorem nearest_eq_ofUnitRatio (negative : Bool) (d : Decimal) :
    d.nearest negative = .ofUnitRatio negative d.unitRatio.1 d.unitRatio.2 := by
  obtain ⟨digits, exponent⟩ := d
  have zeroRank : ∀ {num den}, rankOfRatio num den = 0 →
      Binary64.ofUnitRatio negative num den = .finite (.zero negative) := fun zero => by
    rw [Binary64.ofUnitRatio, zero]
    rfl
  -- Where the exponent decides, the rank is zero or too large. Elsewhere both sides are the same.
  unfold nearest unitRatio
  simp only [Nat.pow_eq]
  by_cases zero : digits = 0
  · rw [if_pos zero, zero]
    cases exponent <;>
      simp only [Nat.zero_mul] <;>
      exact (zeroRank (rankOfRatio_zero _)).symm
  rw [if_neg zero]
  cases exponent with
  | ofNat e =>
      dsimp only
      split
      · rename_i large
        have := rankCount_le_of_exponent zero large
        rw [Binary64.ofUnitRatio, Binary64.ofRank, dif_neg (Nat.not_lt.2 this)]
      · rfl
  | negSucc e =>
      dsimp only
      split
      · rename_i small
        exact (zeroRank (rankOfRatio_of_exponent small)).symm
      · rfl

theorem nearest_whole (negative : Bool) (n : Nat) :
    nearest negative ⟨n, 0⟩ = .ofUnitRatio negative (n * unitsPerOne) 1 := by
  have ratio : unitRatio ⟨n, .ofNat 0⟩ = (n * 10 ^ 0 * unitsPerOne, 1) := rfl
  rw [Nat.pow_zero, Nat.mul_one] at ratio
  exact (nearest_eq_ofUnitRatio negative ⟨n, .ofNat 0⟩).trans (by rw [ratio])

theorem nearest_scale {d d' : Decimal} {k : Nat} (pos : 0 < k)
    (num : d.unitRatio.1 = k * d'.unitRatio.1) (den : d.unitRatio.2 = k * d'.unitRatio.2)
    (negative : Bool) : d.nearest negative = d'.nearest negative := by
  rw [nearest_eq_ofUnitRatio, nearest_eq_ofUnitRatio, Binary64.ofUnitRatio, num, den,
    rankOfRatio_mul_left pos, Binary64.ofUnitRatio]

/-- A zero at the end of the digits counts in the exponent. -/
theorem nearest_mul_ten (negative : Bool) (digits : Nat) (exponent : Int) :
    nearest negative ⟨digits * 10, exponent⟩ = nearest negative ⟨digits, exponent + 1⟩ := by
  match exponent with
  | .ofNat e =>
      refine nearest_scale Nat.one_pos ?_ rfl negative
      show digits * 10 * 10 ^ e * unitsPerOne = 1 * (digits * 10 ^ (e + 1) * unitsPerOne)
      rw [Nat.one_mul, Nat.pow_succ', Nat.mul_assoc digits]
  | .negSucc 0 =>
      refine nearest_scale (k := 10) (by decide) ?_ rfl negative
      show digits * 10 * unitsPerOne = 10 * (digits * 10 ^ 0 * unitsPerOne)
      rw [Nat.pow_zero, Nat.mul_one, Nat.mul_comm digits, Nat.mul_assoc]
  | .negSucc (e + 1) =>
      refine nearest_scale (k := 10) (by decide) ?_ ?_ negative
      · show digits * 10 * unitsPerOne = 10 * (digits * unitsPerOne)
        rw [Nat.mul_comm digits, Nat.mul_assoc]
      · show 10 ^ (e + 1 + 1) = 10 * 10 ^ (e + 1)
        rw [Nat.pow_succ']

theorem nearest_stripZeros (negative : Bool) (fuel : Nat) (d : Decimal) :
    (stripZeros fuel d).nearest negative = d.nearest negative := by
  induction fuel generalizing d with
  | zero => rfl
  | succ fuel ih =>
      rw [stripZeros]
      split
      · rename_i ends
        simp only [Bool.and_eq_true, decide_eq_true_eq] at ends
        have digits : d.digits / 10 * 10 = d.digits :=
          Nat.div_mul_cancel (Nat.dvd_of_mod_eq_zero ends.1)
        rw [ih, ← nearest_mul_ten, digits]
      · rfl

variable (x : Finite64)

theorem nearest_exact (negative : Bool) :
    (exact x).nearest negative = .finite { x with negative } := by
  have scale : Nat.pow 5 1074 * unitsPerOne = Nat.pow 10 1074 := by decide +kernel
  have positive : 0 < Nat.pow 10 1074 := by decide +kernel
  -- The digits are set aside, so that only the exponent is computed.
  have ratio : (exact x).unitRatio =
      (x.magnitude * Nat.pow 5 1074 * unitsPerOne, Nat.pow 10 1074) := by
    rw [exact]
    generalize x.magnitude * Nat.pow 5 1074 = digits
    exact congrArg (Prod.mk _) (by decide +kernel)
  rw [nearest_eq_ofUnitRatio, ratio, Nat.mul_assoc, scale]
  generalize Nat.pow 10 1074 = power at positive
  have same := rankOfRatio_mul_left positive x.magnitude 1
  rw [Nat.mul_one, Nat.mul_comm] at same
  rw [← Finite64.ofUnitRatio_magnitude, Binary64.ofUnitRatio, same, Binary64.ofUnitRatio]

/-- What a grid offers reads back. -/
theorem readsBack_of_onGrid? {tie : Tie} {x : Finite64} {exponent : Int} {d : Decimal}
    (found : onGrid? tie x exponent = some d) : readsBack x d = true := by
  rw [onGrid?] at found
  dsimp only at found
  split at found
  · cases found
    split <;> assumption
  · cases found
    assumption
  · cases found
    assumption
  · cases found

/-- The shortest decimal of a double reads back as its magnitude. -/
theorem nearest_shortest (tie : Tie) :
    (shortest tie x).nearest false = .finite { x with negative := false } := by
  rw [shortest]
  cases read : List.findSome? _ (List.range 17) with
  | none => exact nearest_exact _ false
  | some d =>
      obtain ⟨_, -, found⟩ := List.exists_of_findSome?_eq_some read
      rw [Option.elim_some, nearest_stripZeros]
      exact beq_iff_eq.1 (readsBack_of_onGrid? found)

end Decimal

end DecisionTable
