/-! # Double precision numbers

A `Binary64` is a value of the IEEE 754 format of that name, without its bits: the one
not-a-number, the two infinities, and the finite numbers. Finite magnitudes are counted, so
a magnitude is a rank: rank 0 is zero, and each next rank is the next larger magnitude.
Ranks order numbers as their values do, and two numbers are equal exactly when their
parts are, but for the two zeros.
-/

namespace DecisionTable

/-- Number of magnitudes in a binade, 2⁵². -/
def binadeSize : Nat := 4503599627370496

/-- Number of finite magnitudes: 2047 binades. -/
def rankCount : Nat := 2047 * binadeSize

/-- The magnitude of a rank, counted in units of 2⁻¹⁰⁷⁴. Below rank 2⁵² neighbours are one
    unit apart; then the distance doubles every 2⁵² ranks. -/
def unitsOfRank (rank : Nat) : Nat :=
  if rank < binadeSize then rank
  else (binadeSize + rank % binadeSize) <<< (rank / binadeSize - 1)

/-- Units in one: a whole number `n` is `n * unitsPerOne` units. -/
def unitsPerOne : Nat := 1 <<< 1074

/-- A finite double: a sign and the rank of its magnitude. -/
structure Finite64 where
  negative : Bool
  rank : Nat
  bound : rank < rankCount
  deriving DecidableEq

namespace Finite64

/-- The magnitude in units of 2⁻¹⁰⁷⁴. -/
def magnitude (x : Finite64) : Nat := unitsOfRank x.rank

/-- The signed value in units of 2⁻¹⁰⁷⁴. -/
def units (x : Finite64) : Int := if x.negative then -(x.magnitude : Int) else x.magnitude

/-- The zero of a sign. -/
def zero (negative : Bool) : Finite64 := ⟨negative, 0, by decide⟩

instance : Inhabited Finite64 := ⟨zero false⟩

/-- The number of opposite sign. -/
def neg (x : Finite64) : Finite64 := { x with negative := !x.negative }

/-- Place of a number in the order of the doubles; both zeros stand at 0. -/
def place (x : Finite64) : Int := if x.negative then -(x.rank : Int) else x.rank

/-- Numbers are equal when they stand at the same place, so the two zeros are equal. -/
def same (x y : Finite64) : Bool := x.place == y.place

/-- A whole number: a multiple of 2¹⁰⁷⁴ units. -/
def isWhole (x : Finite64) : Bool := x.magnitude % unitsPerOne == 0

/-- The whole number a double holds, if it is one and lies within ±(2⁵³ - 1), where every
    whole number is a double. -/
def exactInt? (x : Finite64) : Option Int :=
  if x.isWhole && x.magnitude / unitsPerOne ≤ 9007199254740991 then
    let n : Int := (x.magnitude / unitsPerOne : Nat)
    some (if x.negative then -n else n)
  else
    none

theorem exactInt?_bound {x : Finite64} {n : Int} (h : x.exactInt? = some n) :
    -9007199254740991 ≤ n ∧ n ≤ 9007199254740991 := by
  unfold exactInt? at h
  split at h
  · rename_i whole
    simp only [Bool.and_eq_true, decide_eq_true_eq] at whole
    have small := whole.2
    simp only [Option.some.injEq] at h
    subst h
    generalize x.magnitude / unitsPerOne = q at small ⊢
    split <;> omega
  · cases h

end Finite64

/-- A double precision number. -/
inductive Binary64 where
  | nan
  | infinite (negative : Bool)
  | finite (x : Finite64)
  deriving DecidableEq, Inhabited

namespace Binary64

/-- The number of opposite sign. -/
def neg : Binary64 → Binary64
  | nan => nan
  | infinite negative => infinite !negative
  | finite x => finite x.neg

instance : Neg Binary64 := ⟨neg⟩

/-- Order of two numbers. Not-a-number is comparable with nothing. -/
def compare? : Binary64 → Binary64 → Option Ordering
  | nan, _ | _, nan => none
  | infinite true, infinite true | infinite false, infinite false => some .eq
  | infinite true, _ => some .lt
  | infinite false, _ => some .gt
  | finite _, infinite true => some .gt
  | finite _, infinite false => some .lt
  | finite x, finite y => some (compare x.place y.place)

/-- Equality of values: not-a-number differs from everything, the two zeros agree. -/
def same (x y : Binary64) : Bool := x.compare? y == some .eq

/-- Whether this is a number and not a zero. -/
def isNonzero : Binary64 → Bool
  | nan => false
  | infinite _ => true
  | finite x => x.rank != 0

/-- The whole number a double holds, if it is one and lies within ±(2⁵³ - 1). -/
def exactInt? : Binary64 → Option Int
  | finite x => x.exactInt?
  | _ => none

theorem exactInt?_bound {x : Binary64} {n : Int} (h : x.exactInt? = some n) :
    -9007199254740991 ≤ n ∧ n ≤ 9007199254740991 := by
  cases x with
  | finite x => exact Finite64.exactInt?_bound h
  | nan => cases h
  | infinite _ => cases h

/-- The non-negative whole number a finite double holds. -/
def wholeNat? : Binary64 → Option Nat
  | finite x =>
    if x.isWhole && (!x.negative || x.rank == 0) then some (x.magnitude / unitsPerOne) else none
  | _ => none

end Binary64

end DecisionTable
