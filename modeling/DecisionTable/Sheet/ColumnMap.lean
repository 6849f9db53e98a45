/-! # Texts by column

Texts of one row of a sheet, in ascending order of their columns.
-/

namespace DecisionTable

/-- At most one text for each column, in ascending order. -/
abbrev ColumnMap := List (UInt32 × String)

namespace ColumnMap

/-- Stores the text of a column in its place. -/
def insert (column : UInt32) (text : String) : ColumnMap → ColumnMap
  | [] => [(column, text)]
  | (c, t) :: rest =>
    if column < c then (column, text) :: (c, t) :: rest
    else if column = c then (column, text) :: rest
    else (c, t) :: insert column text rest

/-- The text of a column. -/
def get? (column : UInt32) : ColumnMap → Option String
  | [] => none
  | (c, t) :: rest => if c = column then some t else get? column rest

/-- Stores texts one after the other; a later text of a column replaces an earlier one. -/
def ofList (entries : List (UInt32 × String)) : ColumnMap :=
  entries.foldl (fun map entry => insert entry.1 entry.2 map) []

end ColumnMap

end DecisionTable
