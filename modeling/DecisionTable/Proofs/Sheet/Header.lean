import DecisionTable.Proofs.Sheet.Gap
import Mathlib.Logic.Relation

/-! # The search along the header

The search for the gap adds one to the last column of the header, to see whether a cell stands
there and for the gap itself. Nothing in it asks whether that column has a next one. But it
adds only when there is a further cell on the header row, and in a grid that cell stands to the
right of the last column and inside the rectangle (`Search.Ahead`). So no sum leaves the 32
bits (`gap?_in_range`).
-/

namespace DecisionTable

namespace Layout

/-- A search for the gap under way. -/
structure Search where
  /-- The last column of the header so far. -/
  last : UInt32
  /-- The cells that are still to come. -/
  cells : List Cell

namespace Search

/-- The search on a grid at its start. -/
def ofGrid (grid : Grid) : Search := ⟨grid.extent.first.column, grid.cells⟩

/-- The search goes on behind a cell: behind the one at the start, or behind the next label. -/
inductive Step (start : Position) : Search → Search → Prop
  | corner {last : UInt32} {cell : Cell} {rest : List Cell} (here : cell.position = start) :
      Step start ⟨last, cell :: rest⟩ ⟨last, rest⟩
  | label {last : UInt32} {cell : Cell} {rest : List Cell} (elsewhere : cell.position ≠ start)
      (row : cell.position.row = start.row) (adjacent : cell.position.column = last + 1) :
      Step start ⟨last, cell :: rest⟩ ⟨cell.position.column, rest⟩

/-- The places that a search comes to. -/
abbrev Reaches (start : Position) : Search → Search → Prop :=
  Relation.ReflTransGen (Step start)

/-- The search adds one to its last column: its next cell is on the row of the header, and not the
    one at the start. -/
def Adds (start : Position) (s : Search) : Prop :=
  ∃ cell rest, s.cells = cell :: rest ∧ cell.position ≠ start ∧ cell.position.row = start.row

/-- The cells that are still to come stand in order, behind the last column and in the
    rectangle. -/
structure Ahead (extent : Extent) (s : Search) : Prop where
  ordered : Cell.Ordered s.cells
  behind : ∀ c ∈ s.cells, c.position = extent.first ∨
    Position.before ⟨extent.first.row, s.last⟩ c.position = true
  within : ∀ c ∈ s.cells, c.position.column ≤ extent.last.column

namespace Ahead

variable {extent : Extent} {s s' : Search}

theorem step (ahead : s.Ahead extent) (step : Step extent.first s s') : s'.Ahead extent := by
  obtain ⟨ordered, behind, within⟩ := ahead
  cases step with
  | corner here =>
      exact ⟨(List.pairwise_cons.1 ordered).2, (List.forall_mem_cons.1 behind).2,
        (List.forall_mem_cons.1 within).2⟩
  | label elsewhere row adjacent =>
      obtain ⟨first, ordered⟩ := List.pairwise_cons.1 ordered
      refine ⟨ordered, fun c mem => .inr ?_, (List.forall_mem_cons.1 within).2⟩
      rw [← row]
      exact first c mem

theorem reaches (ahead : s.Ahead extent) (reaches : Reaches extent.first s s') :
    s'.Ahead extent := by
  induction reaches with
  | refl => exact ahead
  | tail _ next ih => exact ih.step next

/-- Where the search adds, a cell of the rectangle stands right of its last column. -/
theorem last_lt (ahead : s.Ahead extent) (adds : s.Adds extent.first) :
    s.last < extent.last.column := by
  obtain ⟨cell, rest, cells, elsewhere, row⟩ := adds
  have mem : cell ∈ s.cells := cells ▸ List.mem_cons_self
  have right := Position.column_lt_of_before ((ahead.behind cell mem).resolve_left elsewhere) row
  exact UInt32.lt_of_lt_of_le right (ahead.within cell mem)

end Ahead

theorem ahead_ofExtent (extent : Extent) (cells : List Cell) :
    Ahead extent (.ofGrid (.ofExtent extent cells)) := by
  refine ⟨Grid.ordered_ofExtent extent cells, fun _ => Grid.ahead_of_mem, fun c mem => ?_⟩
  have inside := Grid.contains_of_mem mem
  simp only [Extent.contains, Bool.and_eq_true, decide_eq_true_eq] at inside
  exact inside.2

end Search

open Search

/-- The gap that is found is one more than the last column of a place that the search comes to. -/
theorem exists_reaches_of_gap? {start : Position} {last gapColumn : UInt32}
    {cells rest : List Cell} (found : gap? start last cells = some (gapColumn, rest)) :
    ∃ s, Reaches start ⟨last, cells⟩ s ∧ s.Adds start ∧ gapColumn = s.last + 1 := by
  induction cells generalizing last with
  | nil => cases found
  | cons cell cells ih =>
      rw [gap?] at found
      split at found
      case isTrue here =>
        obtain ⟨s, reaches, adds⟩ := ih found
        exact ⟨s, .head (.corner here) reaches, adds⟩
      case isFalse elsewhere =>
        split at found
        case isTrue => cases found
        case isFalse onRow =>
          have row : cell.position.row = start.row := Decidable.of_not_not onRow
          split at found
          case isTrue adjacent =>
            obtain ⟨s, reaches, adds⟩ := ih found
            exact ⟨s, .head (.label elsewhere row adjacent) reaches, adds⟩
          case isFalse =>
            cases found
            exact ⟨_, .refl, ⟨cell, _, rfl, elsewhere, row⟩, rfl⟩

/-- The column behind a column, if it has 32 bits. -/
def successor? (column : UInt32) : Option UInt32 :=
  if column < 4294967295 then some (column + 1) else none

/-- The search for the gap with sums that are checked. It comes to nothing if one leaves the 32
    bits. -/
def gapChecked? (start : Position) (last : UInt32) :
    List Cell → Option (Option (UInt32 × List Cell))
  | [] => some none
  | cell :: rest =>
    if cell.position = start then gapChecked? start last rest
    else if cell.position.row ≠ start.row then some none
    else
      match successor? last with
      | none => none
      | some next =>
        if cell.position.column = next then gapChecked? start cell.position.column rest
        else (successor? last).map fun gapColumn => some (gapColumn, rest)

/-- Where no sum leaves the 32 bits, the checks make no difference. -/
theorem gapChecked?_eq {start : Position} {last : UInt32} {cells : List Cell}
    (room : ∀ s, Reaches start ⟨last, cells⟩ s → s.Adds start → s.last < 4294967295) :
    gapChecked? start last cells = some (gap? start last cells) := by
  induction cells generalizing last with
  | nil => rfl
  | cons cell cells ih =>
      rw [gapChecked?, gap?]
      split
      case isTrue here => exact ih fun s reaches => room s (.head (.corner here) reaches)
      case isFalse elsewhere =>
        split
        case isTrue => rfl
        case isFalse onRow =>
          have row : cell.position.row = start.row := Decidable.of_not_not onRow
          have next : successor? last = some (last + 1) :=
            if_pos (room _ .refl ⟨cell, cells, rfl, elsewhere, row⟩)
          simp only [next, Option.map_some]
          split
          case isTrue adjacent =>
            exact ih fun s reaches => room s (.head (.label elsewhere row adjacent) reaches)
          case isFalse => rfl

section Grid

variable {extent : Extent} {cells : List Cell}

theorem lt_of_reaches {s : Search}
    (reaches : Reaches extent.first (.ofGrid (.ofExtent extent cells)) s)
    (adds : s.Adds extent.first) : s.last < 4294967295 :=
  UInt32.lt_of_lt_of_le (((ahead_ofExtent extent cells).reaches reaches).last_lt adds)
    (Nat.le_of_lt_succ extent.last.column.toNat_lt)

/-- On a grid the gap is a sum that the search makes, and is not right of the rectangle. -/
theorem le_of_gap? {gapColumn : UInt32} {rest : List Cell}
    (found : gap? extent.first extent.first.column (Grid.ofExtent extent cells).cells =
      some (gapColumn, rest)) :
    ∃ s, Reaches extent.first (.ofGrid (.ofExtent extent cells)) s ∧ s.Adds extent.first ∧
      gapColumn.toNat = s.last.toNat + 1 ∧ gapColumn ≤ extent.last.column := by
  obtain ⟨s, reaches, adds, rfl⟩ := exists_reaches_of_gap? found
  have right := ((ahead_ofExtent extent cells).reaches reaches).last_lt adds
  have successor := toNat_succ_of_lt right
  refine ⟨s, reaches, adds, successor, ?_⟩
  rw [UInt32.le_iff_toNat_le, successor]
  exact UInt32.lt_iff_toNat_lt.1 right

end Grid

/-- On a grid each sum of the search for the gap has room, the search with checked sums is the same,
    and the gap is such a sum and not right of the rectangle, in particular that of a layout. -/
theorem gap?_in_range (extent : Extent) (cells : List Cell) :
    (∀ s, Reaches extent.first (.ofGrid (.ofExtent extent cells)) s → s.Adds extent.first →
      s.last < 4294967295) ∧
    gapChecked? extent.first extent.first.column (Grid.ofExtent extent cells).cells =
      some (gap? extent.first extent.first.column (Grid.ofExtent extent cells).cells) ∧
    (∀ gapColumn rest,
      gap? extent.first extent.first.column (Grid.ofExtent extent cells).cells =
        some (gapColumn, rest) →
      ∃ s, Reaches extent.first (.ofGrid (.ofExtent extent cells)) s ∧ s.Adds extent.first ∧
        gapColumn.toNat = s.last.toNat + 1 ∧ gapColumn ≤ extent.last.column) ∧
    ∀ syn layout rest, detect (.ofExtent extent cells) syn = .ok (layout, rest) →
      layout.gapColumn ≤ extent.last.column := by
  refine ⟨fun _ => lt_of_reaches, gapChecked?_eq fun _ => lt_of_reaches, fun _ _ => le_of_gap?,
    fun syn layout rest detected => ?_⟩
  obtain ⟨behind, found⟩ := exists_gap?_of_detect detected
  obtain ⟨-, -, -, -, within⟩ := le_of_gap? found
  exact within

/-- A header may reach to the last of all columns. -/
theorem gap?_in_range_last_column :
    let extent : Extent := ⟨⟨0, 4294967292⟩, ⟨1, 4294967295⟩⟩
    let grid := Grid.ofExtent extent [⟨⟨0, 4294967293⟩, .text "amount"⟩,
      ⟨⟨0, 4294967295⟩, .text "ok"⟩, ⟨⟨1, 4294967292⟩, .text "BINDING"⟩]
    (∃ s, Reaches extent.first (.ofGrid grid) s ∧ s.Adds extent.first ∧
      s.last = 4294967293 ∧ s.last < 4294967295) ∧
    ∃ layout, detect grid {} = .ok (layout, []) ∧ layout.gapColumn = 4294967294 ∧
      layout.gapColumn ≤ extent.last.column := by
  intro extent grid
  have found : gap? extent.first extent.first.column grid.cells =
      some (4294967294, [⟨⟨1, 4294967292⟩, .text "BINDING"⟩]) := by
    decide +kernel
  have detected : detect grid {} = .ok (⟨4294967294, 1, []⟩, []) :=
    Parser.toOption_eq_some.1 (by decide +kernel)
  obtain ⟨room, -, sum, within⟩ := gap?_in_range extent _
  obtain ⟨s, reaches, adds, gap, -⟩ := sum _ _ found
  refine ⟨⟨s, reaches, adds, ?_, room s reaches adds⟩, _, detected, rfl, within _ _ _ detected⟩
  exact UInt32.toNat_inj.1 (Nat.succ.inj gap.symm)

end Layout

end DecisionTable
