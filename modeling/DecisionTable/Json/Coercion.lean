import DecisionTable.Json.Equality
import DecisionTable.Json.Printer
import DecisionTable.Decimal.Reader
import DecisionTable.Text.Blank

/-! # How values count

Tables are written by people used to spreadsheets: a value counts as true or false, as a
number and as text, and comparisons go through the number a value counts as. `strictEquals`
does without that.
-/

namespace DecisionTable

/-- In text a whole number has no fraction and no number has an exponent; a tie between two
    shortest decimals goes up. -/
def NumberFormat.plain : NumberFormat where
  tie := .upward
  keepFraction := false
  isPositional _ := true

/-- A number as text: whole numbers up to 2⁵³ - 1 by their digits, so that zero has no sign. -/
def Binary64.text (x : Binary64) : String :=
  match x.exactInt? with
  | some n => toString n
  | none => NumberFormat.plain.write x

namespace Json

/-- A number as a value: a whole number up to 2⁵³ - 1 becomes an integer, and what is not finite
    becomes null. -/
def ofBinary64 (x : Binary64) : Json :=
  match h : x.exactInt? with
  | some n =>
    .number (.integer n (by have := Binary64.exactInt?_bound h; omega))
  | none =>
    match x with
    | .finite x => .number (.double x)
    | _ => .null

/-- A count as a value. -/
def ofNat (n : Nat) : Json :=
  if h : n < 18446744073709551616 then .number (.integer n (by omega)) else ofBinary64 (.ofInt n)

/-- Null, false, zero and the empty text count as false, all else as true. -/
def truthy : Json → Bool
  | null => false
  | bool value => value
  | number n => n.toBinary64.isNonzero
  | string text => !text.isEmpty
  | array _ | object _ => true

/-- The finite number a text spells, blank space around it aside. A blank text is zero. -/
def numberOfText? (text : String) : Option Binary64 :=
  match Text.trimmed text.toList with
  | [] => some (.finite (.zero false))
  | trimmed =>
    match Decimal.read? trimmed with
    | some (.finite x) => some (.finite x)
    | _ => none

/-- The number a value counts as. Null and containers count as none. -/
def toNumber? : Json → Option Binary64
  | bool value => some (.ofNat value.toNat)
  | number n => some n.toBinary64
  | string text => numberOfText? text
  | null | array _ | object _ => none

/-- A value as text: a string stands for itself, containers are written compactly. -/
def render : Json → String
  | null => "null"
  | bool value => if value then "true" else "false"
  | number n => n.toBinary64.text
  | string text => text
  | value => value.compact

/-- Equality without coercion. Two numbers are equal when they have the same double. -/
def strictEquals : Json → Json → Bool
  | number a, number b => a.toBinary64.same b.toBinary64
  | a, b => a.equivalent b

/-- Whether two values count as the same number. -/
def sameNumber (a b : Json) : Bool :=
  match a.toNumber?, b.toNumber? with
  | some x, some y => x.same y
  | _, _ => false

/-- Equality with coercion: null equals only null; a truth value against another kind and a
    number against a string compare as numbers. -/
def looseEquals (a b : Json) : Bool :=
  match a, b with
  | null, null => true
  | null, _ | _, null => false
  | bool _, bool _ => strictEquals a b
  | bool _, _ | _, bool _ => sameNumber a b
  | number _, string _ | string _, number _ => sameNumber a b
  | _, _ => strictEquals a b

/-- Order of two values: strings by their characters, all else as numbers. Values that do not
    both count as numbers are not comparable. -/
def compare? (a b : Json) : Option Ordering :=
  match a, b with
  | string a, string b => some (compare a b)
  | a, b =>
    match a.toNumber?, b.toNumber? with
    | some x, some y => x.compare? y
    | _, _ => none

end Json

end DecisionTable
