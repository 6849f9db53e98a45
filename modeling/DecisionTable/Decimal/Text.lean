import DecisionTable.Decimal.Shortest

/-! # Writing doubles

`Decimal.positional` and `Decimal.scientific` spell the digits of a decimal;
`NumberFormat.write` chooses between them and names the numbers that have no digits. A
format is a record, and the two formats in use stand where they are used.
-/

namespace DecisionTable

namespace Decimal

/-- The exponent of the first digit. -/
def scientificExponent (d : Decimal) : Int :=
  d.exponent + (Nat.toDigits 10 d.digits).length - 1

/-- The digits with the point at its place; a whole number gets `.0` if `keepFraction`. -/
def positional (keepFraction : Bool) (d : Decimal) : List Char :=
  let digits := Nat.toDigits 10 d.digits
  match d.exponent with
  | .ofNat e => digits ++ List.replicate e '0' ++ (if keepFraction then ['.', '0'] else [])
  | .negSucc e =>
    let padded := List.replicate (e + 2 - digits.length) '0' ++ digits
    let whole := padded.length - (e + 1)
    padded.take whole ++ '.' :: padded.drop whole

/-- One digit, the others after a point, and a signed exponent: `1.25e-7`. -/
def scientific (d : Decimal) : List Char :=
  let exponent := d.scientificExponent
  let sign := if exponent < 0 then '-' else '+'
  let tail := 'e' :: sign :: Nat.toDigits 10 exponent.natAbs
  match Nat.toDigits 10 d.digits with
  | [] => tail
  | [first] => first :: tail
  | first :: rest => first :: '.' :: rest ++ tail

end Decimal

/-- How doubles are written. -/
structure NumberFormat where
  /-- Which of two equally near shortest decimals is written. -/
  tie : Decimal.Tie
  /-- Whether a whole number keeps a fraction `.0`. -/
  keepFraction : Bool
  /-- Exponents of the first digit that are written with a point at its place; any other is
      written with an exponent. -/
  isPositional : Int → Bool

namespace NumberFormat

/-- The text of a finite number's magnitude. -/
def writeMagnitude (format : NumberFormat) (x : Finite64) : List Char :=
  if x.rank = 0 then
    Decimal.positional format.keepFraction ⟨0, 0⟩
  else
    let d := Decimal.shortest format.tie x
    if format.isPositional d.scientificExponent then d.positional format.keepFraction
    else d.scientific

/-- The text of a finite number; a negative zero keeps its sign. -/
def writeFinite (format : NumberFormat) (x : Finite64) : String :=
  let text := format.writeMagnitude x
  String.ofList (if x.negative then '-' :: text else text)

/-- The text of a number. -/
def write (format : NumberFormat) : Binary64 → String
  | .nan => "NaN"
  | .infinite negative => if negative then "-inf" else "inf"
  | .finite x => format.writeFinite x

end NumberFormat

end DecisionTable
