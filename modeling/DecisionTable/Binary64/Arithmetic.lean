import DecisionTable.Binary64.Rounding

/-! # Arithmetic on doubles

Each operation computes the exact result on units and rounds it once. The cases without an
exact result (infinities, division by zero, not-a-number) are spelled out.
-/

namespace DecisionTable.Binary64

/-- Sum. Opposite infinities have none; an exact zero is negative only if both terms are. -/
def add : Binary64 → Binary64 → Binary64
  | nan, _ | _, nan => nan
  | infinite s, infinite t => if s = t then infinite s else nan
  | infinite s, finite _ | finite _, infinite s => infinite s
  | finite x, finite y => ofUnits (x.negative && y.negative) (x.units + y.units)

instance : Add Binary64 := ⟨add⟩

/-- Difference: the sum with the number of opposite sign. -/
def sub (x y : Binary64) : Binary64 := x + -y

instance : Sub Binary64 := ⟨sub⟩

/-- Product. Zero times infinity is not a number. -/
def mul : Binary64 → Binary64 → Binary64
  | nan, _ | _, nan => nan
  | infinite s, infinite t => infinite (s != t)
  | infinite s, finite y => if y.rank = 0 then nan else infinite (s != y.negative)
  | finite x, infinite t => if x.rank = 0 then nan else infinite (x.negative != t)
  | finite x, finite y =>
    ofUnitRatio (x.negative != y.negative) (x.magnitude * y.magnitude) unitsPerOne

instance : Mul Binary64 := ⟨mul⟩

/-- Quotient. Dividing by zero gives infinity, but 0 / 0 is not a number. -/
def div : Binary64 → Binary64 → Binary64
  | nan, _ | _, nan => nan
  | infinite _, infinite _ => nan
  | infinite s, finite y => infinite (s != y.negative)
  | finite x, infinite t => finite (.zero (x.negative != t))
  | finite x, finite y =>
    if y.rank = 0 then
      if x.rank = 0 then nan else infinite (x.negative != y.negative)
    else
      ofUnitRatio (x.negative != y.negative) (x.magnitude * unitsPerOne) y.magnitude

instance : Div Binary64 := ⟨div⟩

/-- Remainder of the quotient truncated toward zero; it has the sign of the dividend. -/
def rem : Binary64 → Binary64 → Binary64
  | nan, _ | _, nan => nan
  | infinite _, _ => nan
  | finite x, infinite _ => finite x
  | finite x, finite y =>
    if y.rank = 0 then nan else ofUnitRatio x.negative (x.magnitude % y.magnitude) 1

instance : Mod Binary64 := ⟨rem⟩

end DecisionTable.Binary64
