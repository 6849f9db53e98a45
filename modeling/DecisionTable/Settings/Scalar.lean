import DecisionTable.Settings.Value
import DecisionTable.Decimal.Reader

/-! # Plain scalars

What a scalar without quotes stands for in a configuration file: null, a truth value, a whole
number, a fraction, or else itself as text.
-/

namespace DecisionTable.Scalar

/-- Spellings of null. The empty scalar is null too. -/
def nulls : List String := ["", "~", "null", "Null", "NULL"]

/-- Spellings of true. -/
def trues : List String := ["true", "True", "TRUE"]

/-- Spellings of false. -/
def falses : List String := ["false", "False", "FALSE"]

/-- Spellings of the numbers that are not finite. -/
def notFinite : List String :=
  [".inf", ".Inf", ".INF", "+.inf", "+.Inf", "+.INF", "-.inf", "-.Inf", "-.INF", ".nan", ".NaN",
    ".NAN"]

/-- The value of a digit in a base up to 16. -/
def digit? (base : Nat) (c : Char) : Option Nat :=
  let n :=
    if c.isDigit then c.toNat - '0'.toNat
    else if 'a' ≤ c && c ≤ 'f' then c.toNat - 'a'.toNat + 10
    else if 'A' ≤ c && c ≤ 'F' then c.toNat - 'A'.toNat + 10
    else base
  if n < base then some n else none

/-- The value of digits in a base. -/
def natOf? (base : Nat) (digits : List Char) : Option Nat :=
  if digits.isEmpty then none
  else digits.foldlM (fun n c => (digit? base c).map (base * n + ·)) 0

/-- Whether digits start with a zero that is not the only one; such a scalar is text. -/
def hasIdleZero : List Char → Bool
  | '0' :: c :: rest => (c :: rest).all Char.isDigit
  | _ => false

/-- A scalar without its sign. -/
def unsigned : List Char → List Char
  | '+' :: rest => rest
  | '-' :: rest => rest
  | text => text

/-- A whole number without a sign, in base ten, or in the base that its start names. -/
def magnitude? : List Char → Option Nat
  | '0' :: 'x' :: digits => natOf? 16 digits
  | '0' :: 'o' :: digits => natOf? 8 digits
  | '0' :: 'b' :: digits => natOf? 2 digits
  | digits => if hasIdleZero digits then none else natOf? 10 digits

/-- A whole number, if it fits 128 bits. -/
def integer? : List Char → Option Int
  | '-' :: rest => (magnitude? rest).bind fun n =>
      if n ≤ 1 <<< 127 then some (-(n : Int)) else none
  | '+' :: rest => (magnitude? rest).bind fun n => if n < 1 <<< 128 then some (n : Int) else none
  | text => (magnitude? text).bind fun n => if n < 1 <<< 128 then some (n : Int) else none

/-- Whether a scalar is a number with or without a fraction or an exponent, or one that is not
    finite. -/
def isDecimal (text : String) : Bool :=
  let chars := text.toList
  let body := match chars with
    | '+' :: rest => if rest.head? == some '+' || rest.head? == some '-' then [] else rest
    | chars => chars
  notFinite.contains text ||
    match Decimal.read? body with
    | some (.finite _) => true
    | _ => false

/-- The truth value of a scalar. -/
def bool? (text : String) : Option Bool :=
  if trues.contains text then some true else if falses.contains text then some false else none

/-- What a plain scalar stands for. -/
def resolve (text : String) : Setting :=
  if nulls.contains text then .null
  else
    match bool? text, integer? text.toList with
    | some b, _ => .bool b
    | none, some n => .integer n
    | none, none =>
      if !hasIdleZero (unsigned text.toList) && isDecimal text then .fraction else .text text

/-- The kinds of scalars that a file can ask for. -/
inductive Kind where
  | null
  | bool
  | integer
  | fraction
  deriving DecidableEq, Repr

/-- What a scalar of a kind stands for, quoted or not; `none` if it is not of that kind. -/
def ofKind? (kind : Kind) (text : String) : Option Setting :=
  match kind with
  | .null => if nulls.contains text && !text.isEmpty then some .null else none
  | .bool => (bool? text).map .bool
  | .integer => (integer? text.toList).map .integer
  | .fraction => if isDecimal text then some .fraction else none

end DecisionTable.Scalar
