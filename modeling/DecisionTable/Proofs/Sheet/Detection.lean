import DecisionTable.Proofs.Sheet.Gap
import Mathlib.Data.Nat.Find
import Mathlib.Order.Bounds.Basic

/-! # What a layout is

A description of a table's layout by its cells, with no word of a scan: where the gap is, which
label is the first behind it, and which cell is the marker. `Layout.Detects` says which result
each grid has, and `Layout.detect_iff_detects` that the scan over the cells finds it.
-/

namespace DecisionTable

/-- Behind a cell of ordered ones stand just those that come after it by their places. -/
theorem Cell.Ordered.before_iff_mem {front rest : List Cell} {cell c : Cell}
    (ordered : Ordered (front ++ cell :: rest)) (mem : c ∈ front ++ cell :: rest) :
    cell.position.before c.position = true ↔ c ∈ rest := by
  obtain ⟨-, behind, apart⟩ := List.pairwise_append.1 ordered
  constructor
  · intro after
    rcases List.mem_append.1 mem with ahead | mem
    · have := Position.before_trans after (apart c ahead cell List.mem_cons_self)
      rw [Position.not_before_self] at this
      cases this
    · rcases List.mem_cons.1 mem with rfl | mem
      · rw [Position.not_before_self] at after
        cases after
      · exact mem
  · exact (List.pairwise_cons.1 behind).1 c

namespace Grid

/-- The columns right of the first one that have a label, a cell in the header row. -/
def labelColumns (grid : Grid) : Set Nat :=
  {n | grid.extent.first.column.toNat < n ∧ ∃ c ∈ grid.cells,
    c.position.row = grid.extent.first.row ∧ c.position.column.toNat = n}

/-- The gap is at the first column without a label, right of the first column of all. Behind a
    header that fills its row there is none on the sheet, only a number for it. -/
def IsGap (grid : Grid) (gap : Nat) : Prop :=
  IsLeast {n | grid.extent.first.column.toNat < n ∧ n ∉ grid.labelColumns} gap

/-- The first label behind the gap. -/
structure Breaks (grid : Grid) (gap : Nat) (next : Cell) : Prop where
  mem : next ∈ grid.cells
  row : next.position.row = grid.extent.first.row
  least : IsLeast {n | n ∈ grid.labelColumns ∧ gap < n} next.position.column.toNat

/-- The first cell behind a label that reads as the marker. -/
structure Marks (grid : Grid) (text : String) (next marker : Cell) : Prop where
  mem : marker ∈ grid.cells
  behind : next.position.before marker.position = true
  reads : marker.value.render = text
  first : ∀ c ∈ grid.cells, next.position.before c.position = true →
    c.position.before marker.position = true → c.value.render ≠ text

end Grid

namespace Layout

/-- The layout that a grid has, or what is wrong with it. Without a label behind the gap there is no
    gap, and a marker counts behind the first such label only. The templates are the cells right of
    the marker, and the cells below its row are left. -/
inductive Detects (grid : Grid) (syn : TableSyntax) :
    Except TableError (Layout × List Cell) → Prop where
  | noGap {gap : Nat} (isGap : grid.IsGap gap) (last : ∀ n ∈ grid.labelColumns, n ≤ gap) :
      Detects grid syn (.error (.noGap grid.extent.first.row))
  | noMarker {gap : Nat} {next : Cell} (isGap : grid.IsGap gap) (breaks : grid.Breaks gap next)
      (unread : ∀ c ∈ grid.cells, next.position.before c.position = true →
        c.value.render ≠ syn.marker) :
      Detects grid syn (.error (.missingMarker syn.marker))
  | found {gapColumn : UInt32} {next marker : Cell} (isGap : grid.IsGap gapColumn.toNat)
      (breaks : grid.Breaks gapColumn.toNat next) (marks : grid.Marks syn.marker next marker) :
      Detects grid syn (.ok (⟨gapColumn, marker.position.row,
        ColumnMap.ofRow CellValue.render (marker.rightOf grid.cells)⟩,
        Cell.below marker.position.row grid.cells))

/-- A grid has one result. -/
theorem Detects.unique {grid : Grid} {syn : TableSyntax}
    {result result' : Except TableError (Layout × List Cell)}
    (ordered : Cell.Ordered grid.cells) (detects : Detects grid syn result)
    (detects' : Detects grid syn result') : result = result' := by
  have nextUnique {gap gap' : Nat} {next next' : Cell} (isGap : grid.IsGap gap)
      (isGap' : grid.IsGap gap') (breaks : grid.Breaks gap next)
      (breaks' : grid.Breaks gap' next') : next = next' := by
    obtain rfl := isGap.unique isGap'
    have column := UInt32.toNat_inj.1 (breaks.least.unique breaks'.least)
    exact ordered.unique breaks.mem breaks'.mem
      (congrArg₂ Position.mk (breaks.row.trans breaks'.row.symm) column)
  have broken {gap gap' : Nat} {next : Cell} (isGap : grid.IsGap gap) (isGap' : grid.IsGap gap')
      (last : ∀ n ∈ grid.labelColumns, n ≤ gap) (breaks : grid.Breaks gap' next) : False := by
    obtain rfl := isGap.unique isGap'
    obtain ⟨label, right⟩ := breaks.least.1
    exact Nat.not_lt.2 (last _ label) right
  cases detects with
  | noGap isGap last =>
      cases detects' with
      | noGap => rfl
      | noMarker isGap' breaks => exact (broken isGap isGap' last breaks).elim
      | found isGap' breaks => exact (broken isGap isGap' last breaks).elim
  | noMarker isGap breaks unread =>
      cases detects' with
      | noGap isGap' last => exact (broken isGap' isGap last breaks).elim
      | noMarker => rfl
      | found isGap' breaks' marks =>
          obtain rfl := nextUnique isGap isGap' breaks breaks'
          exact absurd marks.reads (unread _ marks.mem marks.behind)
  | @found gapColumn next marker isGap breaks marks =>
      cases detects' with
      | noGap isGap' last => exact (broken isGap' isGap last breaks).elim
      | noMarker isGap' breaks' unread =>
          obtain rfl := nextUnique isGap isGap' breaks breaks'
          exact absurd marks.reads (unread _ marks.mem marks.behind)
      | @found gapColumn' next' marker' isGap' breaks' marks' =>
          obtain rfl := nextUnique isGap isGap' breaks breaks'
          obtain rfl := UInt32.toNat_inj.1 (isGap.unique isGap')
          have same : marker.position = marker'.position := by
            by_contra differ
            by_cases before : marker.position.before marker'.position = true
            · exact marks'.first _ marks.mem marks.behind before marks.reads
            · exact marks.first _ marks'.mem marks'.behind
                (Position.before_of_not_before before differ) marks'.reads
          obtain rfl := ordered.unique marks.mem marks'.mem same
          rfl

/-- Where the search for the gap ends without one, the header has no column left out. -/
theorem filled_of_gap? {start : Position} {last : UInt32} {cells : List Cell}
    (ordered : Cell.Ordered cells) (behind : start.column ≤ last)
    (ahead : ∀ c ∈ cells, c.position = start ∨ Position.before ⟨start.row, last⟩ c.position = true)
    (h : gap? start last cells = none) {c : Cell} (mem : c ∈ cells)
    (row : c.position.row = start.row) {column : UInt32} (right : last < column)
    (within : column ≤ c.position.column) :
    ∃ label ∈ cells, label.position = ⟨start.row, column⟩ := by
  induction cells generalizing last with
  | nil => cases mem
  | cons cell cells ih =>
      obtain ⟨first, ordered⟩ := List.pairwise_cons.1 ordered
      obtain ⟨here, ahead⟩ := List.forall_mem_cons.1 ahead
      rw [gap?] at h
      split at h
      case isTrue corner =>
        rcases List.mem_cons.1 mem with rfl | mem
        · rw [corner] at within
          exact absurd (UInt32.lt_of_lt_of_le right within) (UInt32.not_lt.2 behind)
        · obtain ⟨label, mem, at_⟩ := ih ordered behind ahead h mem right
          exact ⟨label, List.mem_cons_of_mem _ mem, at_⟩
      case isFalse notCorner =>
        have after := here.resolve_left notCorner
        split at h
        case isTrue offRow =>
          -- the first cell is in a lower row, and the others come after it
          have below : start.row < cell.position.row :=
            (Position.before_iff.1 after).resolve_right fun level => offRow level.1.symm
          have low : cell.position.row ≤ c.position.row := by
            rcases List.mem_cons.1 mem with rfl | mem
            · exact UInt32.le_refl _
            · exact Position.row_le_of_before (first c mem)
          exact absurd (UInt32.lt_of_lt_of_le below low) (row ▸ UInt32.lt_irrefl _)
        case isFalse onRow =>
          have level : cell.position.row = start.row := Decidable.of_not_not onRow
          split at h
          case isTrue adjacent =>
            have next := Position.column_lt_of_before after level
            by_cases same : column = cell.position.column
            · exact ⟨cell, List.mem_cons_self, by rw [same, ← level]⟩
            · have successor := toNat_succ_of_lt next
              have further : cell.position.column < column := by
                simp only [UInt32.lt_iff_toNat_lt, ← UInt32.toNat_inj] at *
                omega
              rcases List.mem_cons.1 mem with rfl | mem
              · exact absurd further (UInt32.not_lt.2 within)
              · have ahead (c) (mem : c ∈ cells) : c.position = start ∨
                    Position.before ⟨start.row, cell.position.column⟩ c.position = true :=
                  .inr (level ▸ first c mem)
                obtain ⟨label, mem, at_⟩ := ih ordered
                  (UInt32.le_trans behind (UInt32.le_of_lt next)) ahead h mem further
                exact ⟨label, List.mem_cons_of_mem _ mem, at_⟩
          case isFalse => cases h

end Layout

namespace Grid

variable {extent : Extent} {cells : List Cell}

theorem mem_labelColumns {n : Nat} : n ∈ (ofExtent extent cells).labelColumns ↔
    extent.first.column.toNat < n ∧ ∃ c ∈ (ofExtent extent cells).cells,
      c.position.row = extent.first.row ∧ c.position.column.toNat = n := Iff.rfl

/-- There is always a first column without a label, if not on the sheet then behind it. -/
theorem exists_isGap (extent : Extent) (cells : List Cell) :
    ∃ gap, (ofExtent extent cells).IsGap gap := by
  have free : ∃ n, extent.first.column.toNat < n ∧ n ∉ (ofExtent extent cells).labelColumns := by
    refine ⟨UInt32.size, extent.first.column.toNat_lt, fun label => ?_⟩
    obtain ⟨-, c, -, -, at_⟩ := mem_labelColumns.1 label
    exact Nat.lt_irrefl _ (at_ ▸ c.position.column.toNat_lt)
  classical
  exact ⟨Nat.find free, Nat.find_spec free, fun n outside => Nat.find_min' free outside⟩

theorem isGap_of_cut {gapColumn : UInt32} {header rest : List Cell} {next : Cell}
    (split : (ofExtent extent cells).cells = header ++ next :: rest)
    (cut : Layout.Cut extent.first extent.first.column gapColumn header next) :
    (ofExtent extent cells).IsGap gapColumn.toNat := by
  have ordered := ordered_ofExtent extent cells
  rw [split] at ordered
  refine ⟨⟨UInt32.lt_iff_toNat_lt.1 cut.behind, fun label => ?_⟩, fun n ⟨right, free⟩ => ?_⟩
  · obtain ⟨-, c, mem, row, at_⟩ := mem_labelColumns.1 label
    rw [split] at mem
    exact cut.position_ne ordered c mem (congrArg₂ Position.mk row (UInt32.toNat_inj.1 at_))
  · by_contra left
    have small : n < UInt32.size := Nat.lt_trans (Nat.not_le.1 left) gapColumn.toNat_lt
    have number : (UInt32.ofNat n).toNat = n := UInt32.toNat_ofNat_of_lt small
    obtain ⟨c, mem, at_⟩ := cut.filled (.ofNat n) (by rwa [UInt32.lt_iff_toNat_lt, number])
      (by rwa [UInt32.lt_iff_toNat_lt, number, ← Nat.not_le])
    refine free (mem_labelColumns.2 ⟨right, c, ?_, by rw [at_], by rw [at_, number]⟩)
    rw [split]
    exact List.mem_append_left _ mem

theorem breaks_of_cut {gapColumn : UInt32} {header rest : List Cell} {next : Cell}
    (split : (ofExtent extent cells).cells = header ++ next :: rest)
    (cut : Layout.Cut extent.first extent.first.column gapColumn header next) :
    (ofExtent extent cells).Breaks gapColumn.toNat next := by
  have ordered := ordered_ofExtent extent cells
  have mem : next ∈ (ofExtent extent cells).cells := split ▸ by simp
  have behind := UInt32.lt_iff_toNat_lt.1 cut.behind
  have skipped := UInt32.lt_iff_toNat_lt.1 cut.skipped
  rw [split] at ordered
  refine ⟨mem, cut.row, ⟨⟨Nat.lt_trans behind skipped, next, mem, cut.row, rfl⟩, skipped⟩, ?_⟩
  rintro n ⟨⟨-, c, memC, row, rfl⟩, right⟩
  rw [split] at memC
  rcases List.mem_append.1 memC with ahead | memC
  · rcases cut.within c ahead with corner | ⟨-, left⟩
    · rw [corner] at right
      exact absurd right (Nat.lt_asymm behind)
    · exact absurd right (Nat.lt_asymm (UInt32.lt_iff_toNat_lt.1 left))
  · rcases List.mem_cons.1 memC with rfl | after
    · exact Nat.le_refl _
    · have later := (ordered.before_iff_mem (List.mem_append_right _ memC)).2 after
      exact Nat.le_of_lt (UInt32.lt_iff_toNat_lt.1
        (Position.column_lt_of_before later (row.trans cut.row.symm)))

/-- The scan ends without a gap just where no label stands behind it. -/
theorem labelColumns_le_of_gap? {gap : Nat} (isGap : (ofExtent extent cells).IsGap gap)
    (h : Layout.gap? extent.first extent.first.column (ofExtent extent cells).cells = none) :
    ∀ n ∈ (ofExtent extent cells).labelColumns, n ≤ gap := by
  intro n label
  obtain ⟨-, c, mem, row, rfl⟩ := mem_labelColumns.1 label
  by_contra further
  have within := Nat.not_le.1 further
  have number : (UInt32.ofNat gap).toNat = gap :=
    UInt32.toNat_ofNat_of_lt (Nat.lt_trans within c.position.column.toNat_lt)
  obtain ⟨⟨right, free⟩, -⟩ := isGap
  have low : extent.first.column < .ofNat gap := by rwa [UInt32.lt_iff_toNat_lt, number]
  have high : .ofNat gap ≤ c.position.column := by
    rw [UInt32.le_iff_toNat_le, number]
    exact Nat.le_of_lt within
  obtain ⟨label, memLabel, at_⟩ := Layout.filled_of_gap? (ordered_ofExtent extent cells)
    (UInt32.le_refl _) (fun c => ahead_of_mem) h mem row low high
  exact free (mem_labelColumns.2 ⟨right, label, memLabel, by rw [at_], by rw [at_, number]⟩)

end Grid

namespace Layout

/-- The search for the marker stops behind the cell that marks the templates. -/
theorem marks_of_marker? {grid : Grid} {text : String} {row : UInt32}
    {header rest onward : List Cell} {next : Cell} (ordered : Cell.Ordered grid.cells)
    (split : grid.cells = header ++ next :: rest) (found : marker? text rest = some (row, onward)) :
    ∃ front marker, grid.cells = front ++ marker :: onward ∧ marker.position.row = row ∧
      grid.Marks text next marker := by
  obtain ⟨skipped, marker, rfl, level, reads, earlier⟩ := marker?_eq_some_iff.1 found
  have regrouped : grid.cells = (header ++ next :: skipped) ++ marker :: onward := by simp [split]
  have behind (c) (mem : c ∈ grid.cells) :
      next.position.before c.position = true ↔ c ∈ skipped ++ marker :: onward := by
    rw [split] at ordered mem
    exact ordered.before_iff_mem mem
  have mem : marker ∈ grid.cells := split ▸ by simp
  refine ⟨_, marker, regrouped, level, mem, (behind marker mem).2 (by simp), reads, ?_⟩
  intro c memC after before
  have notBefore (onwards : c = marker ∨ c ∈ onward) : False := by
    have back : marker.position = c.position ∨ marker.position.before c.position = true := by
      rcases onwards with rfl | onwards
      · exact .inl rfl
      · rw [regrouped] at ordered memC
        exact .inr ((ordered.before_iff_mem memC).2 onwards)
    have again : c.position.before c.position = true := by
      rcases back with same | back
      · rwa [same] at before
      · exact Position.before_trans before back
    rw [Position.not_before_self] at again
    cases again
  rcases List.mem_append.1 ((behind c memC).1 after) with memC | memC
  · exact earlier c memC
  · exact (notBefore (List.mem_cons.1 memC)).elim

theorem detects_detect (extent : Extent) (cells : List Cell) (syn : TableSyntax) :
    Detects (.ofExtent extent cells) syn (detect (.ofExtent extent cells) syn) := by
  have ordered := Grid.ordered_ofExtent extent cells
  rw [detect]
  split
  case h_1 ended =>
    obtain ⟨gap, isGap⟩ := Grid.exists_isGap extent cells
    exact .noGap isGap (Grid.labelColumns_le_of_gap? isGap ended)
  case h_2 gapColumn rest found =>
    replace found : gap? extent.first extent.first.column (Grid.ofExtent extent cells).cells =
        some (gapColumn, rest) := found
    obtain ⟨header, next, split, cut⟩ := exists_cut_of_gap? found
    have isGap := Grid.isGap_of_cut split cut
    have breaks := Grid.breaks_of_cut split cut
    split
    case h_1 ended =>
      refine .noMarker isGap breaks fun c mem after => marker?_eq_none_iff.1 ended c ?_
      rw [split] at ordered mem
      exact (ordered.before_iff_mem mem).1 after
    case h_2 row onward foundMarker =>
      obtain ⟨front, marker, regrouped, rfl, marks⟩ := marks_of_marker? ordered split foundMarker
      rw [regrouped] at ordered
      obtain ⟨templates, low⟩ := templates_behind ordered
      rw [← regrouped] at templates low
      dsimp only
      rw [templates, low]
      exact .found isGap breaks marks

/-- The cells of a grid are ordered by rows, and the layout that is read off them is the one that
    the grid has, error for error. -/
theorem detect_iff_detects (extent : Extent) (cells : List Cell) (syn : TableSyntax)
    (result : Except TableError (Layout × List Cell)) :
    Cell.Ordered (Grid.ofExtent extent cells).cells ∧
    (detect (.ofExtent extent cells) syn = result ↔
      Detects (.ofExtent extent cells) syn result) := by
  have ordered := Grid.ordered_ofExtent extent cells
  have detects := detects_detect extent cells syn
  exact ⟨ordered, fun same => same ▸ detects, fun detects' => detects.unique ordered detects'⟩

end Layout

end DecisionTable
