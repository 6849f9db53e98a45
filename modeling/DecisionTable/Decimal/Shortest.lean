import DecisionTable.Decimal.Basic

/-! # Shortest decimal of a double

The shortest decimal is the one with the fewest digits that still reads back as the double;
of two such decimals of one length it is the nearer. A decimal grid holds a point that reads
back exactly if one of the double's two neighbours on that grid does, so each length needs
two trials. Seventeen digits always suffice.
-/

namespace DecisionTable.Decimal

/-- Which of two equally near decimals is taken. -/
inductive Tie where
  /-- The one whose last digit is even. -/
  | toEven
  /-- The larger one. -/
  | upward
  deriving DecidableEq, Repr

/-- The place of a positive number's first digit: the `e` with `10ᵉ ≤ units < 10ᵉ⁺¹`. The least
    double is above 10⁻³²⁴, so this scale leaves at least one digit. -/
def leadingExponent (units : Nat) : Int :=
  ((Nat.toDigits 10 (units * Nat.pow 10 324 / unitsPerOne)).length : Int) - 325

/-- A number of units divided by `10 ^ exponent`, as numerator and denominator. -/
def gridRatio (units : Nat) : Int → Nat × Nat
  | .ofNat e => (units, unitsPerOne * Nat.pow 10 e)
  | .negSucc e => (units * Nat.pow 10 (e + 1), unitsPerOne)

/-- Whether a decimal reads back as a double of non-negative sign. -/
def readsBack (x : Finite64) (d : Decimal) : Bool := d.nearest false == .finite x

/-- The better of the double's two neighbours on the grid of step `10 ^ exponent`, if one of
    them reads back. -/
def onGrid? (tie : Tie) (x : Finite64) (exponent : Int) : Option Decimal :=
  let (num, den) := gridRatio x.magnitude exponent
  let low : Decimal := ⟨num / den, exponent⟩
  let high : Decimal := ⟨num / den + 1, exponent⟩
  match readsBack x low, readsBack x high with
  | true, true =>
    let twice := 2 * (num % den)
    let up := den < twice ||
      (twice == den && (tie == .upward || low.digits % 2 == 1))
    some (if up then high else low)
  | true, false => some low
  | false, true => some high
  | false, false => none

/-- Drops zeros at the end of the digits into the exponent, at most `fuel` of them. -/
def stripZeros : Nat → Decimal → Decimal
  | 0, d => d
  | fuel + 1, d =>
    if d.digits % 10 = 0 && d.digits != 0 then stripZeros fuel ⟨d.digits / 10, d.exponent + 1⟩
    else d

/-- The shortest decimal of a positive double; the sign of `x` is not looked at. -/
def shortest (tie : Tie) (x : Finite64) : Decimal :=
  let x := { x with negative := false }
  let lead := leadingExponent x.magnitude
  let found := (List.range 17).findSome? fun (n : Nat) => onGrid? tie x (lead - n)
  found.elim (exact x) (stripZeros 17)

end DecisionTable.Decimal
