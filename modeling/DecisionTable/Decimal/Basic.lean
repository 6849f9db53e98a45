import DecisionTable.Binary64.Rounding

/-! # Decimals and the double nearest to them -/

namespace DecisionTable

/-- The number `digits * 10 ^ exponent`. -/
structure Decimal where
  digits : Nat
  exponent : Int
  deriving DecidableEq, Repr

namespace Decimal

/-- The double nearest to a decimal of a sign. Decimals too large for any finite double, and
    those nearer to zero than to the least one, are told by their exponent alone, so that an
    absurd exponent costs nothing. -/
def nearest (negative : Bool) (d : Decimal) : Binary64 :=
  if d.digits = 0 then
    .finite (.zero negative)
  else
    match d.exponent with
    | .ofNat e =>
      if 309 ≤ e then .infinite negative
      else .ofUnitRatio negative (d.digits * Nat.pow 10 e * unitsPerOne) 1
    | .negSucc e =>
      if d.digits.log2 + 1076 ≤ 3 * (e + 1) then .finite (.zero negative)
      else .ofUnitRatio negative (d.digits * unitsPerOne) (Nat.pow 10 (e + 1))

/-- A finite double written out in full: one unit is 5¹⁰⁷⁴ · 10⁻¹⁰⁷⁴. -/
def exact (x : Finite64) : Decimal := ⟨x.magnitude * Nat.pow 5 1074, -1074⟩

end Decimal

end DecisionTable
