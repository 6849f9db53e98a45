import DecisionTable.Decimal.Basic

/-! # Reading numbers

The accepted texts are an optional sign and then either `inf`, `infinity` or `nan` in any
case, or digits with at most one point among or around them and an optional exponent. There
is no blank space and no digit separator.
-/

namespace DecisionTable.Decimal

/-- The value of a list of digits. -/
def natOfDigits (digits : List Char) : Nat := Nat.ofDigitChars 10 digits 0

/-- Reads the text after the mantissa: nothing, or `e` and a whole number. -/
def exponent? : List Char → Option Int
  | [] => some 0
  | mark :: rest =>
    let (negative, digits) := match rest with
      | '-' :: digits => (true, digits)
      | '+' :: digits => (false, digits)
      | digits => (false, digits)
    if (mark == 'e' || mark == 'E') && !digits.isEmpty && digits.all Char.isDigit then
      some (if negative then -(natOfDigits digits : Int) else natOfDigits digits)
    else
      none

/-- Reads a decimal without a sign, such as `12`, `12.`, `.5` or `1.5e-3`. -/
def unsigned? (text : List Char) : Option Decimal :=
  let whole := text.takeWhile Char.isDigit
  let rest := text.dropWhile Char.isDigit
  let (fraction, tail) := match rest with
    | '.' :: rest => (rest.takeWhile Char.isDigit, rest.dropWhile Char.isDigit)
    | rest => ([], rest)
  if whole.isEmpty && fraction.isEmpty then
    none
  else
    (exponent? tail).map fun e => ⟨natOfDigits (whole ++ fraction), e - fraction.length⟩

/-- Reads a number without a sign. -/
def magnitude? (negative : Bool) (text : List Char) : Option Binary64 :=
  let lowered := String.ofList (text.map Char.toLower)
  if lowered = "inf" || lowered = "infinity" then some (.infinite negative)
  else if lowered = "nan" then some .nan
  else (unsigned? text).map (nearest negative)

/-- Reads a number: the double nearest to the text's value. -/
def read? : List Char → Option Binary64
  | '-' :: rest => magnitude? true rest
  | '+' :: rest => magnitude? false rest
  | text => magnitude? false text

end DecisionTable.Decimal
