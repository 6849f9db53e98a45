import DecisionTable.Proofs.Formula.Parsing
import DecisionTable.Proofs.Sheet.Layout

/-! # The gap in the header

The header starts in the first column of the table, whether a cell is there or not, and the gap
is the first column behind it without a cell. So a header whose first two columns are empty has
its gap before all labels.
-/

namespace DecisionTable

namespace Grid

theorem contains_of_mem {extent : Extent} {cells : List Cell} {c : Cell}
    (mem : c ∈ (ofExtent extent cells).cells) : extent.contains c.position = true := by
  have kept (cells : List Cell) (mem : c ∈ cells.foldr Cell.place []) : c ∈ cells := by
    induction cells with
    | nil => exact mem
    | cons cell cells ih =>
        rcases Cell.mem_place mem with rfl | mem
        · exact List.mem_cons_self
        · exact List.mem_cons_of_mem _ (ih mem)
  exact (List.mem_filter.1 (kept _ mem)).2

/-- In a grid all cells stand in its rectangle, so none stands before its first place. -/
theorem ahead_of_mem {extent : Extent} {cells : List Cell} {c : Cell}
    (mem : c ∈ (ofExtent extent cells).cells) :
    c.position = extent.first ∨ extent.first.before c.position = true := by
  have inside := contains_of_mem mem
  simp only [Extent.contains, Bool.and_eq_true, decide_eq_true_eq] at inside
  by_cases corner : c.position = extent.first
  · exact .inl corner
  · refine .inr (Position.before_of_not_before (fun before => ?_) corner)
    rcases Position.before_iff.1 before with above | ⟨-, left⟩
    · exact UInt32.not_lt.2 inside.1.1.1 above
    · exact UInt32.not_lt.2 inside.1.2 left

end Grid

/-- The first cell of all is the leftmost one of its row. -/
theorem Cell.Ordered.isLeftmost_head {cell : Cell} {cells : List Cell}
    (ordered : Ordered (cell :: cells)) : cell.isLeftmost (cell :: cells) = true := by
  rw [isLeftmost_iff]
  intro c mem same
  rcases List.mem_cons.1 mem with rfl | mem
  · exact UInt32.le_refl _
  · rcases Position.before_iff.1 ((List.pairwise_cons.1 ordered).1 c mem) with above | ⟨-, left⟩
    · exact absurd above (same ▸ UInt32.lt_irrefl _)
    · exact UInt32.le_of_lt left

namespace Layout

/-- A column with another one to its right is not the last one that can be counted. -/
theorem toNat_succ_of_lt {column other : UInt32} (h : column < other) :
    (column + 1).toNat = column.toNat + 1 := by
  have := other.toNat_lt
  rw [UInt32.lt_iff_toNat_lt] at h
  rw [UInt32.toNat_add, UInt32.toNat_one]
  omega

/-- A header row that is cut at a gap: cells at all columns between the last one and the gap, and a
    next cell behind the gap. -/
structure Cut (start : Position) (last gapColumn : UInt32) (header : List Cell) (next : Cell) :
    Prop where
  behind : last < gapColumn
  within : ∀ c ∈ header, c.position = start ∨
    c.position.row = start.row ∧ c.position.column < gapColumn
  filled : ∀ column, last < column → column < gapColumn →
    ∃ c ∈ header, c.position = ⟨start.row, column⟩
  row : next.position.row = start.row
  skipped : gapColumn < next.position.column

/-- The search goes from cell to cell to the right: a cell of the header row that is still to come
    stands right of the last one. -/
theorem cut_of_gap? {start : Position} {last gapColumn : UInt32} {cells rest : List Cell}
    (ordered : Cell.Ordered cells)
    (ahead : ∀ c ∈ cells, c.position = start ∨ Position.before ⟨start.row, last⟩ c.position = true)
    (h : gap? start last cells = some (gapColumn, rest)) :
    ∃ header next, cells = header ++ next :: rest ∧ Cut start last gapColumn header next := by
  induction cells generalizing last with
  | nil => cases h
  | cons cell cells ih =>
      obtain ⟨first, ordered⟩ := List.pairwise_cons.1 ordered
      obtain ⟨here, ahead⟩ := List.forall_mem_cons.1 ahead
      rw [gap?] at h
      split at h
      case isTrue corner =>
        obtain ⟨header, next, rfl, cut⟩ := ih ordered ahead h
        refine ⟨cell :: header, next, rfl, { cut with within := ?_, filled := ?_ }⟩
        · exact List.forall_mem_cons.2 ⟨.inl corner, cut.within⟩
        · intro column low high
          obtain ⟨c, mem, at_⟩ := cut.filled column low high
          exact ⟨c, List.mem_cons_of_mem _ mem, at_⟩
      case isFalse notCorner =>
        split at h
        case isTrue => cases h
        case isFalse onRow =>
          have row : cell.position.row = start.row := Decidable.of_not_not onRow
          have right : last < cell.position.column :=
            Position.column_lt_of_before (here.resolve_left notCorner) row
          have successor := toNat_succ_of_lt right
          split at h
          case isTrue adjacent =>
            have ahead (c) (mem : c ∈ cells) : c.position = start ∨
                Position.before ⟨start.row, cell.position.column⟩ c.position = true :=
              .inr (row ▸ first c mem)
            obtain ⟨header, next, rfl, cut⟩ := ih ordered ahead h
            refine ⟨cell :: header, next, rfl,
              { cut with behind := ?_, within := ?_, filled := ?_ }⟩
            · exact UInt32.lt_trans right cut.behind
            · exact List.forall_mem_cons.2 ⟨.inr ⟨row, cut.behind⟩, cut.within⟩
            · intro column low high
              by_cases same : column = cell.position.column
              · exact ⟨cell, List.mem_cons_self, by rw [same, ← row]⟩
              · have further : cell.position.column < column := by
                  simp only [UInt32.lt_iff_toNat_lt, ← UInt32.toNat_inj] at *
                  omega
                obtain ⟨c, mem, at_⟩ := cut.filled column further high
                exact ⟨c, List.mem_cons_of_mem _ mem, at_⟩
          case isFalse skips =>
            cases h
            simp only [← UInt32.toNat_inj] at skips
            refine ⟨[], cell, rfl, ⟨?_, by simp, ?_, row, ?_⟩⟩
            · rw [UInt32.lt_iff_toNat_lt]
              omega
            · intro column low high
              rw [UInt32.lt_iff_toNat_lt] at low high
              omega
            · rw [UInt32.lt_iff_toNat_lt] at right ⊢
              omega

theorem Cut.position_ne {start : Position} {gapColumn : UInt32} {header rest : List Cell}
    {next : Cell} (cut : Cut start start.column gapColumn header next)
    (ordered : Cell.Ordered (header ++ next :: rest)) :
    ∀ c ∈ header ++ next :: rest, c.position ≠ ⟨start.row, gapColumn⟩ := by
  intro c mem at_
  rcases List.mem_append.1 mem with mem | mem
  · rcases cut.within c mem with corner | ⟨-, left⟩
    · rw [at_] at corner
      exact UInt32.lt_irrefl _ (congrArg Position.column corner ▸ cut.behind)
    · rw [at_] at left
      exact UInt32.lt_irrefl _ left
  · have right : gapColumn < c.position.column := by
      rcases List.mem_cons.1 mem with rfl | mem
      · exact cut.skipped
      · have := (List.pairwise_cons.1 (List.pairwise_append.1 ordered).2.1).1 c mem
        have same : c.position.row = next.position.row := by rw [at_, cut.row]
        rcases Position.before_iff.1 this with above | ⟨-, further⟩
        · exact absurd above (same ▸ UInt32.lt_irrefl _)
        · exact UInt32.lt_trans cut.skipped further
    rw [at_] at right
    exact UInt32.lt_irrefl _ right

theorem exists_cut_of_gap? {extent : Extent} {cells rest : List Cell} {gapColumn : UInt32}
    (found : gap? extent.first extent.first.column (Grid.ofExtent extent cells).cells =
      some (gapColumn, rest)) :
    ∃ header next, (Grid.ofExtent extent cells).cells = header ++ next :: rest ∧
      Cut extent.first extent.first.column gapColumn header next := by
  exact cut_of_gap? (Grid.ordered_ofExtent extent cells) (fun c => Grid.ahead_of_mem) found

theorem exists_gap?_of_detect {extent : Extent} {cells rest : List Cell} {syn : TableSyntax}
    {layout : Layout} (detected : detect (.ofExtent extent cells) syn = .ok (layout, rest)) :
    ∃ behind, gap? extent.first extent.first.column (Grid.ofExtent extent cells).cells =
      some (layout.gapColumn, behind) := by
  rw [detect] at detected
  split at detected
  · cases detected
  · rename_i gapColumn behind found
    split at detected <;> cases detected
    exact ⟨behind, found⟩

/-- The gap is right of the first column, and a label left of it stands in one of the first two
    columns if it is the leftmost one. A header that starts further right is cut before it. -/
theorem leftmost_lt_gapColumn_iff {extent : Extent} {cells : List Cell} {syn : TableSyntax}
    {layout : Layout} {rest : List Cell}
    (detected : detect (.ofExtent extent cells) syn = .ok (layout, rest)) :
    extent.first.column < layout.gapColumn ∧
    ∃ label ∈ (Grid.ofExtent extent cells).cells, label.position.row = extent.first.row ∧
      label.isLeftmost (Grid.ofExtent extent cells).cells = true ∧
      (label.position.column < layout.gapColumn ↔
        label.position.column.toNat ≤ extent.first.column.toNat + 1) := by
  obtain ⟨behind, found⟩ := exists_gap?_of_detect detected
  obtain ⟨header, next, split, cut⟩ := exists_cut_of_gap? found
  have ordered := Grid.ordered_ofExtent extent cells
  have inside (c) (mem : c ∈ (Grid.ofExtent extent cells).cells) := Grid.contains_of_mem mem
  obtain ⟨label, others, start⟩ := List.exists_cons_of_ne_nil
    (l := header ++ next :: behind) (by simp)
  rw [split] at ordered inside ⊢
  have empty := cut.position_ne ordered
  have mem : label ∈ header ++ next :: behind := start ▸ List.mem_cons_self
  rw [start] at ordered
  have leftmost := ordered.isLeftmost_head
  rw [← start] at leftmost
  have lowest : label.position.row ≤ next.position.row := by
    have memNext : next ∈ label :: others := start ▸ by simp
    rcases List.mem_cons.1 memNext with rfl | memNext
    · exact UInt32.le_refl _
    · exact Position.row_le_of_before ((List.pairwise_cons.1 ordered).1 next memNext)
  have row : label.position.row = extent.first.row := by
    have := inside label mem
    simp only [Extent.contains, Bool.and_eq_true, decide_eq_true_eq] at this
    exact UInt32.le_antisymm (cut.row ▸ lowest) this.1.1.1
  have right := cut.behind
  have successor := toNat_succ_of_lt right
  refine ⟨right, label, mem, row, leftmost, fun left => ?_, fun near => ?_⟩
  · rw [← successor, ← UInt32.le_iff_toNat_le]
    refine UInt32.not_lt.1 fun far => ?_
    have low : extent.first.column < extent.first.column + 1 := by
      rw [UInt32.lt_iff_toNat_lt]
      omega
    obtain ⟨c, memC, at_⟩ := cut.filled _ low (UInt32.lt_trans far left)
    have := Cell.isLeftmost_iff.1 leftmost c (List.mem_append_left _ memC) (by rw [at_, row])
    rw [at_] at this
    exact UInt32.not_lt.2 this far
  · refine UInt32.not_le.1 fun le => empty label mem ?_
    have same : label.position.column = layout.gapColumn := by
      rw [UInt32.lt_iff_toNat_lt] at right
      rw [UInt32.le_iff_toNat_le] at le
      rw [← UInt32.toNat_inj]
      omega
    rw [← row, ← same]

theorem leftmost_lt_gapColumn_iff_blank_corner :
    let grid := Grid.ofExtent ⟨⟨2, 1⟩, ⟨4, 4⟩⟩
      [⟨⟨2, 2⟩, .text "amount"⟩, ⟨⟨2, 4⟩, .text "ok"⟩, ⟨⟨3, 1⟩, .text "BINDING"⟩,
        ⟨⟨3, 2⟩, .text "$value"⟩, ⟨⟨3, 4⟩, .text "$value"⟩]
    ∃ layout rest, detect grid {} = .ok (layout, rest) ∧
      ∃ label ∈ grid.cells, label.position.row = 2 ∧ label.isLeftmost grid.cells = true ∧
        label.position.column < layout.gapColumn := by
  intro grid
  have detected : detect grid {} = .ok (⟨3, 3, [(2, "$value"), (4, "$value")]⟩, []) :=
    Parser.toOption_eq_some.1 (by decide +kernel)
  obtain ⟨-, label, mem, row, leftmost, iff⟩ := leftmost_lt_gapColumn_iff detected
  have near : ∀ label ∈ grid.cells, label.position.row = 2 →
      label.isLeftmost grid.cells = true → label.position.column.toNat ≤ 2 := by
    decide +kernel
  exact ⟨_, _, detected, label, mem, row, leftmost, iff.2 (near label mem row leftmost)⟩

/-- Two columns without a label put all labels behind the gap. -/
theorem gapColumn_lt_leftmost :
    let grid := Grid.ofExtent ⟨⟨0, 0⟩, ⟨2, 5⟩⟩
      [⟨⟨0, 2⟩, .text "amount"⟩, ⟨⟨0, 3⟩, .text "country"⟩, ⟨⟨0, 5⟩, .text "ok"⟩,
        ⟨⟨1, 0⟩, .text "BINDING"⟩, ⟨⟨1, 2⟩, .text "this.amount > $value"⟩,
        ⟨⟨1, 3⟩, .text "this.country == '$value'"⟩, ⟨⟨1, 5⟩, .text "this.ok = $value"⟩]
    ∃ layout rest, detect grid {} = .ok (layout, rest) ∧
      ∃ label ∈ grid.cells, label.position.row = 0 ∧ label.isLeftmost grid.cells = true ∧
        layout.gapColumn < label.position.column := by
  intro grid
  refine ⟨⟨1, 1, [(2, "this.amount > $value"), (3, "this.country == '$value'"),
    (5, "this.ok = $value")]⟩, [], Parser.toOption_eq_some.1 (by decide +kernel),
    ⟨⟨0, 2⟩, .text "amount"⟩, by decide +kernel, rfl, by decide +kernel, by decide⟩

end Layout

end DecisionTable
