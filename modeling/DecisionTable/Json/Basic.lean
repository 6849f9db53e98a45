import DecisionTable.Binary64.Rounding

/-! # JSON values

A number is a whole number of 64 bits or a finite double, and the two are different values
even when they have the same magnitude. The members of an object keep their order. Look-up
takes the first member of a name; storing replaces that member in place and otherwise adds
one at the end, so the values built here have one member per name.
-/

namespace DecisionTable

/-- A JSON number. -/
inductive Number where
  /-- A whole number that fits 64 bits, signed if negative and unsigned otherwise: it lies from
      -2⁶³ up to 2⁶⁴ - 1. -/
  | integer (value : Int)
      (inRange : -9223372036854775808 ≤ value ∧ value < 18446744073709551616)
  | double (x : Finite64)
  deriving DecidableEq

namespace Number

/-- The double nearest to a number. -/
def toBinary64 : Number → Binary64
  | integer value _ => .ofInt value
  | double x => .finite x

end Number

/-- A JSON value. -/
inductive Json where
  | null
  | bool (value : Bool)
  | number (n : Number)
  | string (text : String)
  | array (items : List Json)
  | object (members : List (String × Json))
  deriving Inhabited

/-- The members of an object, in order. -/
abbrev Members := List (String × Json)

/-- The object that rules read and change. -/
abbrev Fact := Members

namespace Members

/-- The value of the first member of a name. -/
def get? (key : String) : Members → Option Json
  | [] => none
  | (k, v) :: rest => if k = key then some v else get? key rest

/-- Stores a value: in the place of the first member of that name, or else at the end. -/
def insert (key : String) (value : Json) : Members → Members
  | [] => [(key, value)]
  | (k, v) :: rest => if k = key then (k, value) :: rest else (k, v) :: insert key value rest

/-- Removes every member of a name. -/
def erase (key : String) (members : Members) : Members := members.filter (·.1 != key)

/-- The names of the members. -/
def keys (members : Members) : List String := members.map Prod.fst

end Members

namespace Json

mutual

/-- Whether two values are the same, order of members included. -/
def same : Json → Json → Bool
  | null, null => true
  | bool a, bool b => a == b
  | number a, number b => a == b
  | string a, string b => a == b
  | array a, array b => sameItems a b
  | object a, object b => sameMembers a b
  | _, _ => false

/-- `same` on lists of values. -/
def sameItems : List Json → List Json → Bool
  | [], [] => true
  | a :: as, b :: bs => same a b && sameItems as bs
  | _, _ => false

/-- `same` on lists of members. -/
def sameMembers : List (String × Json) → List (String × Json) → Bool
  | [], [] => true
  | (k, a) :: as, (l, b) :: bs => k == l && same a b && sameMembers as bs
  | _, _ => false

end

mutual

theorem same_iff : ∀ a b : Json, same a b = true ↔ a = b
  | .null, b => by cases b <;> simp [same]
  | .bool a, b => by cases b <;> simp [same]
  | .number a, b => by cases b <;> simp [same]
  | .string a, b => by cases b <;> simp [same]
  | .array a, b => by cases b <;> simp [same, sameItems_iff a]
  | .object a, b => by cases b <;> simp [same, sameMembers_iff a]

theorem sameItems_iff : ∀ a b : List Json, sameItems a b = true ↔ a = b
  | [], b => by cases b <;> simp [sameItems]
  | a :: as, b => by
      cases b with
      | nil => simp [sameItems]
      | cons b bs => simp [sameItems, same_iff a b, sameItems_iff as bs]

theorem sameMembers_iff : ∀ a b : List (String × Json), sameMembers a b = true ↔ a = b
  | [], b => by cases b <;> simp [sameMembers]
  | (k, a) :: as, b => by
      cases b with
      | nil => simp [sameMembers]
      | cons head bs =>
          obtain ⟨l, b⟩ := head
          simp [sameMembers, same_iff a b, sameMembers_iff as bs, and_assoc]

end

instance : DecidableEq Json := fun a b => decidable_of_iff _ (same_iff a b)

end Json

end DecisionTable
