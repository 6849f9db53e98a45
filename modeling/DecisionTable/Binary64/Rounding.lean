import DecisionTable.Binary64.Basic

/-! # Rounding to a double

A non-negative ratio of units is rounded to the nearest rank; of two nearest ranks the even
one is taken. A ratio that lands past the last finite rank becomes infinite.
-/

namespace DecisionTable

/-- The rank nearest to `num / den` units of 2⁻¹⁰⁷⁴, a tie going to the even rank. The result
    is not bounded: ranks from `rankCount` on stand for infinity. -/
def rankOfRatio (num den : Nat) : Nat :=
  let binade := (num / den).log2 - 52
  let step := den <<< binade
  let low := num / step
  let rest := num % step
  let up := step < 2 * rest || (2 * rest == step && low % 2 == 1)
  binade * binadeSize + (if up then low + 1 else low)

namespace Binary64

/-- The number of a sign and a rank; ranks past the last finite one are infinite. -/
def ofRank (negative : Bool) (rank : Nat) : Binary64 :=
  if h : rank < rankCount then finite ⟨negative, rank, h⟩ else infinite negative

/-- The double nearest to `num / den` units of 2⁻¹⁰⁷⁴. -/
def ofUnitRatio (negative : Bool) (num den : Nat) : Binary64 :=
  ofRank negative (rankOfRatio num den)

/-- The double nearest to a signed number of units; zero units give the stated zero. -/
def ofUnits (zeroNegative : Bool) (units : Int) : Binary64 :=
  if units = 0 then finite (.zero zeroNegative) else ofUnitRatio (units < 0) units.natAbs 1

/-- The double nearest to a whole number. -/
def ofInt (n : Int) : Binary64 := ofUnitRatio (n < 0) (n.natAbs * unitsPerOne) 1

/-- The double nearest to a natural number. -/
def ofNat (n : Nat) : Binary64 := ofInt n

end Binary64

end DecisionTable
