import DecisionTable.Console.Style
import DecisionTable.Rule.Set

/-! # Listings

Rules and tables as lines for people to read.
-/

namespace DecisionTable

/-- A line that a line break ended, without a carriage return before the break. -/
def endedLine (line : String) : String :=
  if line.endsWith "\r" then String.ofList line.toList.dropLast else line

/-- The lines of a text. A break at the end starts no further line. -/
def textLines (text : String) : List String :=
  match (text.splitOn "\n").reverse with
  | [] => []
  | last :: ended => (ended.map endedLine).reverse ++ (if last.isEmpty then [] else [last])

/-- A rule: its name, its condition, and a line for each line of its consequence. -/
def CompiledRule.listing (rule : CompiledRule) (palette : Palette) : String :=
  let condition :=
    if rule.condition.source.isEmpty then palette.paint .muted "(always)"
    else palette.paint .expression rule.condition.source
  let consequence :=
    if rule.consequence.source.isEmpty then [palette.paint .muted "(nothing)"]
    else (textLines rule.consequence.source).map (palette.paint .expression)
  palette.paint .ruleName rule.name ++ "\n  " ++ palette.paint .muted "when" ++ " " ++ condition ++
    "\n" ++ String.join (consequence.map fun line => s!"  → {line}\n")

/-- A text filled up with spaces to a number of characters. -/
def padded (width : Nat) (text : String) : String := text ++ "".pushn ' ' (width - text.length)

/-- A row of a table; its last cell is not filled up. -/
def tableRow : List Nat → List String → String
  | _, [] => "\n"
  | _, [cell] => cell ++ "\n"
  | width :: widths, cell :: cells => padded width cell ++ "  " ++ tableRow widths cells
  | [], cell :: cells => cell ++ "  " ++ tableRow [] cells

/-- The number of characters that each column of a table takes. -/
def columnWidths (rows : List (List String)) : List Nat :=
  rows.foldr (fun row widths => (row.map String.length).zipWithAll (fun a b =>
    max (a.getD 0) (b.getD 0)) widths) []

/-- A table: its headings, a line under each of them, and its rows. -/
def tableText (headings : List String) (rows : List (List String)) : String :=
  let widths := columnWidths (headings :: rows)
  let lines := widths.map fun width => "".pushn '-' width
  String.join ((headings :: lines :: rows).map (tableRow widths))

end DecisionTable
