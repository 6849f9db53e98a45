import DecisionTable.Json.Basic

/-! # Structural equality

Two values are structurally equal when they differ at most in the order of members and in the
sign of zeros. Each value has a normal form, with members sorted by name and no negative
zero; structural equality is equality of normal forms, and so an equivalence.
-/

namespace DecisionTable

/-- The number with a negative zero replaced by the positive one. -/
def Number.normal : Number → Number
  | .double x => .double (if x.rank = 0 then .zero false else x)
  | n => n

/-- Puts a member before the first one whose name is not smaller. -/
def Members.insertSorted (key : String) (value : Json) : Members → Members
  | [] => [(key, value)]
  | (k, v) :: rest =>
    if k < key then (k, v) :: insertSorted key value rest else (key, value) :: (k, v) :: rest

namespace Json

mutual

/-- The normal form of a value. -/
def normal : Json → Json
  | null => null
  | bool value => bool value
  | number n => number n.normal
  | string text => string text
  | array items => array (normalItems items)
  | object members => object (normalMembers members)

/-- The normal forms of a list of values. -/
def normalItems : List Json → List Json
  | [] => []
  | item :: rest => normal item :: normalItems rest

/-- The members sorted by name, with normal values. -/
def normalMembers : List (String × Json) → List (String × Json)
  | [] => []
  | (key, value) :: rest => Members.insertSorted key (normal value) (normalMembers rest)

end

/-- Structural equality. -/
def equivalent (a b : Json) : Bool := a.normal == b.normal

end Json

/-- Structural equality of objects. -/
def Members.equivalent (a b : Members) : Bool := Json.equivalent (.object a) (.object b)

end DecisionTable
