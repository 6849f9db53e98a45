import DecisionTable.Json.Basic
import DecisionTable.Decimal.Reader

/-! # Field paths

A path names a field of a fact by the member names that lead to it. Reading goes through
arrays by index and yields null for what is absent, but null has no members. Assigning goes
through objects only, and adds at most the last name.
-/

namespace DecisionTable

/-- A path of at least one segment. -/
structure FieldPath where
  first : String
  rest : List String
  deriving DecidableEq, Repr

/-- Why a formula cannot be evaluated, with the path up to the value at fault. -/
inductive EvalError where
  /-- A member was read or assigned through null or an absent value. -/
  | missing (path : List String)
  /-- An assignment went through a value that is not an object. -/
  | notObject (path : List String)
  deriving DecidableEq, Repr

/-- Segments joined by points. -/
def dotted (segments : List String) : String := String.intercalate "." segments

/-- The text of an evaluation error. -/
def EvalError.message : EvalError → String
  | missing path => s!"missing '{dotted path}'"
  | notObject path => s!"cannot assign through non-object '{dotted path}'"

/-- The array index a segment spells: digits, possibly behind a plus sign. -/
def arrayIndex? (segment : String) : Option Nat :=
  let digits := match segment.toList with
    | '+' :: digits => digits
    | digits => digits
  if !digits.isEmpty && digits.all Char.isDigit then some (Decimal.natOfDigits digits) else none

/-- The value under a segment; what is absent is null. -/
def Json.child (value : Json) (segment : String) : Json :=
  match value with
  | object members => (Members.get? segment members).getD null
  | array items => ((arrayIndex? segment).bind fun i => items[i]?).getD null
  | _ => null

namespace FieldPath

/-- All segments of a path. -/
def segments (path : FieldPath) : List String := path.first :: path.rest

/-- The path as text. -/
def text (path : FieldPath) : String := dotted path.segments

/-- Reads on from a value that stands at the segments `walked`. -/
def readFrom (walked : List String) (current : Json) : List String → Except EvalError Json
  | [] => .ok current
  | segment :: rest =>
    match current with
    | .null => .error (.missing walked)
    | current => readFrom (walked ++ [segment]) (current.child segment) rest

/-- The value at a path. A first segment that the fact lacks is null. -/
def read (path : FieldPath) (fact : Fact) : Except EvalError Json :=
  readFrom [path.first] ((Members.get? path.first fact).getD .null) path.rest

/-- Stores a value under `key` and the segments after it, below the segments `walked`. -/
def assignFrom (walked : List String) (value : Json) (key : String) :
    List String → Members → Except EvalError Members
  | [], members => .ok (Members.insert key value members)
  | next :: rest, members =>
    match Members.get? key members with
    | some (.object inner) =>
      (assignFrom (walked ++ [key]) value next rest inner).map fun inner =>
        Members.insert key (.object inner) members
    | none | some .null => .error (.missing (walked ++ [key]))
    | some _ => .error (.notObject (walked ++ [key]))

/-- The fact with a value stored at a path. Every segment but the last must hold an object. -/
def assign (path : FieldPath) (value : Json) (fact : Fact) : Except EvalError Fact :=
  assignFrom [] value path.first path.rest fact

end FieldPath

end DecisionTable
