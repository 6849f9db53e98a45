import DecisionTable.Binary64.Rounding
import Mathlib.Algebra.Order.Ring.Int

/-! # What rounds to a rank

Rounding depends on the ratio alone (`rankOfRatio_mul_left`), and takes the magnitude of a rank to
that rank (`rankOfRatio_unitsOfRank`). So a ratio that is exactly a double's magnitude rounds to
that double, and a double that holds a whole number is the one nearest to it
(`Finite64.ofInt_of_exactInt?`).
-/

namespace DecisionTable

theorem rankOfRatio_mul_left {k : Nat} (pos : 0 < k) (num den : Nat) :
    rankOfRatio (k * num) (k * den) = rankOfRatio num den := by
  have quotient : k * num / (k * den) = num / den := Nat.mul_div_mul_left num den pos
  have step : ∀ binade, (k * den) <<< binade = k * den <<< binade := fun binade => by
    rw [Nat.shiftLeft_eq, Nat.shiftLeft_eq, Nat.mul_assoc]
  simp only [rankOfRatio, quotient, step, Nat.mul_div_mul_left _ _ pos, Nat.mul_mod_mul_left]
  have double : ∀ n, 2 * (k * n) = k * (2 * n) := fun n => Nat.mul_left_comm 2 k n
  have equal : ∀ m n, (k * m == k * n) = (m == n) := fun m n => by
    rw [Bool.eq_iff_iff, beq_iff_eq, beq_iff_eq, Nat.mul_right_inj pos.ne']
  simp only [double, equal, Nat.mul_lt_mul_left pos]

theorem rankOfRatio_zero (den : Nat) : rankOfRatio 0 den = 0 := by
  simp [rankOfRatio]

/-- A whole number of units that is a multiple of the distance of ranks in its binade is not
    rounded. -/
theorem rankOfRatio_exact {multiple binade : Nat}
    (log : (multiple * 2 ^ binade).log2 - 52 = binade) :
    rankOfRatio (multiple * 2 ^ binade) 1 = binade * binadeSize + multiple := by
  have positive : 0 < 2 ^ binade := Nat.two_pow_pos binade
  have noTie : ((0 : Nat) == 2 ^ binade) = false := beq_false_of_ne positive.ne
  simp only [rankOfRatio, Nat.div_one, log, Nat.shiftLeft_eq, Nat.one_mul,
    Nat.mul_div_cancel _ positive, Nat.mul_mod_left, Nat.mul_zero, Nat.not_lt_zero, decide_false,
    noTie, Bool.false_and, Bool.or_self, Bool.false_eq_true, ↓reduceIte]

theorem rankOfRatio_unitsOfRank (rank : Nat) : rankOfRatio (unitsOfRank rank) 1 = rank := by
  unfold unitsOfRank
  split
  · rename_i small
    have log : (rank * 2 ^ 0).log2 - 52 = 0 := by
      rw [Nat.pow_zero, Nat.mul_one]
      by_cases zero : rank = 0
      · simp [zero]
      · have := (Nat.log2_lt zero).2 (show rank < 2 ^ 52 from small)
        omega
    have := rankOfRatio_exact log
    rwa [Nat.pow_zero, Nat.mul_one, Nat.zero_mul, Nat.zero_add] at this
  · rename_i large
    have size : 0 < binadeSize := by decide
    have below := Nat.mod_lt rank size
    have positive : 1 ≤ rank / binadeSize := (Nat.one_le_div_iff size).2 (Nat.le_of_not_lt large)
    generalize significand_eq : binadeSize + rank % binadeSize = significand
    have log : (significand * 2 ^ (rank / binadeSize - 1)).log2 = 52 + (rank / binadeSize - 1) := by
      refine (Nat.log2_eq_iff (Nat.mul_pos (by omega) (Nat.two_pow_pos _)).ne').2 ⟨?_, ?_⟩
      · rw [Nat.pow_add]
        refine Nat.mul_le_mul_right _ (show binadeSize ≤ significand by omega)
      · rw [Nat.add_right_comm, Nat.pow_add]
        refine (Nat.mul_lt_mul_right (Nat.two_pow_pos _)).2 ?_
        exact (show significand < 2 * binadeSize by omega)
    rw [Nat.shiftLeft_eq, rankOfRatio_exact (by omega), ← significand_eq, ← Nat.add_assoc,
      ← Nat.succ_mul, Nat.succ_eq_add_one, Nat.sub_add_cancel positive, Nat.div_add_mod']

/-- A ratio below half a unit rounds to zero. -/
theorem rankOfRatio_eq_zero {num den : Nat} (small : 2 * num < den) : rankOfRatio num den = 0 := by
  have low : num / den = 0 := Nat.div_eq_of_lt (by omega)
  have rest : num % den = num := Nat.mod_eq_of_lt (by omega)
  have noTie : (2 * num == den) = false := beq_false_of_ne small.ne
  simp [rankOfRatio, low, rest, noTie, Nat.le_of_lt small]

theorem unitsPerOne_pos : 0 < unitsPerOne := by decide +kernel

/-- No finite double has a magnitude of 2¹⁰²⁵ or more. -/
theorem rankCount_le_rankOfRatio {units n : Nat} (large : 2 ^ n ≤ units) (overflow : 2099 ≤ n) :
    rankCount ≤ rankOfRatio units 1 := by
  have positive : 0 < units := Nat.lt_of_lt_of_le (Nat.two_pow_pos n) large
  have log : n ≤ units.log2 := (Nat.le_log2 positive.ne').2 large
  refine Nat.le_trans ?_ (Nat.le_add_right _ _)
  rw [Nat.div_one]
  exact Nat.mul_le_mul_right binadeSize (by omega)

namespace Finite64

variable {x : Finite64}

theorem ofUnitRatio_magnitude (x : Finite64) (negative : Bool) :
    Binary64.ofUnitRatio negative x.magnitude 1 = .finite { x with negative } := by
  rw [Binary64.ofUnitRatio, magnitude, rankOfRatio_unitsOfRank, Binary64.ofRank, dif_pos x.bound]

theorem magnitude_eq_zero_iff : x.magnitude = 0 ↔ x.rank = 0 := by
  constructor
  · intro zero
    rw [← rankOfRatio_unitsOfRank x.rank, ← magnitude, zero, rankOfRatio_zero]
  · intro zero
    rw [magnitude, zero]
    rfl

/-- The number without the sign of a zero. -/
def plain (x : Finite64) : Finite64 := { x with negative := x.negative && x.rank != 0 }

@[simp] theorem magnitude_plain (x : Finite64) : x.plain.magnitude = x.magnitude := rfl

theorem plain_eq (nonzero : x.rank ≠ 0) : x.plain = x := by
  rw [plain, bne_iff_ne.2 nonzero, Bool.and_true]

theorem units_plain (x : Finite64) : x.plain.units = x.units := by
  by_cases zero : x.rank = 0
  · simp [units, magnitude_eq_zero_iff.2 zero]
  · rw [plain_eq zero]

theorem natAbs_units (x : Finite64) : x.units.natAbs = x.magnitude := by
  unfold units
  split <;> simp

theorem units_neg_iff : x.units < 0 ↔ (x.negative && x.rank != 0) = true := by
  rw [Bool.and_eq_true, bne_iff_ne, ne_eq, ← magnitude_eq_zero_iff, units]
  cases x.negative
  · simp
  · simp [Nat.pos_iff_ne_zero]

/-- A double holds a whole number if its units are that many times the units in one. -/
theorem exactInt?_eq_some {n : Int} : x.exactInt? = some n ↔
    x.units = n * unitsPerOne ∧ n.natAbs ≤ 9007199254740991 := by
  have positive := unitsPerOne_pos
  unfold exactInt? isWhole units
  generalize unitsPerOne = one at positive
  constructor
  · intro h
    split at h
    · rename_i whole
      simp only [Bool.and_eq_true, beq_iff_eq, decide_eq_true_eq] at whole
      obtain ⟨multiple, small⟩ := whole
      have product := Nat.div_mul_cancel (Nat.dvd_of_mod_eq_zero multiple)
      generalize x.magnitude / one = quotient at product small h
      cases h
      rw [← product]
      split <;> simp [small]
    · cases h
  · rintro ⟨value, small⟩
    have product : x.magnitude = n.natAbs * one := by
      have := congrArg Int.natAbs value
      rw [Int.natAbs_mul, Int.natAbs_natCast] at this
      rw [← this]
      split <;> simp
    rw [product, Nat.mul_mod_left, Nat.mul_div_cancel _ positive, if_pos (by simpa using small)]
    have nonzero : (one : Int) ≠ 0 := by omega
    refine congrArg some (Int.eq_of_mul_eq_mul_right nonzero ?_)
    rw [← value, product]
    split <;> simp

theorem exactInt?_plain (x : Finite64) : x.plain.exactInt? = x.exactInt? :=
  Option.ext fun n => by rw [exactInt?_eq_some, exactInt?_eq_some, units_plain]

theorem rank_ne_zero_of_exactInt? (fraction : x.exactInt? = none) : x.rank ≠ 0 := by
  intro zero
  have value : x.units = (0 : Int) * unitsPerOne := by
    simp [units, magnitude_eq_zero_iff.2 zero]
  rw [exactInt?_eq_some.2 ⟨value, by decide⟩] at fraction
  cases fraction

section WholeNumber

variable {n : Int} (whole : x.exactInt? = some n)

include whole

theorem natAbs_mul_of_exactInt? : n.natAbs * unitsPerOne = x.magnitude := by
  rw [← natAbs_units, (exactInt?_eq_some.1 whole).1, Int.natAbs_mul, Int.natAbs_natCast]

theorem negative_plain_of_exactInt? : x.plain.negative = decide (n < 0) := by
  rw [plain, Bool.eq_iff_iff, decide_eq_true_iff, ← units_neg_iff, (exactInt?_eq_some.1 whole).1,
    Int.mul_neg_iff]
  have := unitsPerOne_pos
  omega

/-- A double that holds a whole number is the double nearest to it. -/
theorem ofInt_of_exactInt? : Binary64.ofInt n = .finite x.plain := by
  rw [Binary64.ofInt, natAbs_mul_of_exactInt? whole, ofUnitRatio_magnitude,
    ← negative_plain_of_exactInt? whole]
  rfl

end WholeNumber

end Finite64

end DecisionTable
