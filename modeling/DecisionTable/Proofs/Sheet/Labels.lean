import DecisionTable.Proofs.Sheet.Copies

/-! # What labels say

The search for the gap goes by places alone, but it ends one cell behind the gap, still in the
header row. The labels further right are searched for the marker like all other cells. If one
of them reads as the marker, the header is the row of templates. That is all that a table says by
its labels: two tables that differ in labels alone compile alike if these headings agree.
-/

namespace DecisionTable

namespace Layout

/-- Cells at the same places, and the same cells outside of one row. -/
structure Relabeled (row : UInt32) (cells cells' : List Cell) : Prop where
  places : cells.map (·.position) = cells'.map (·.position)
  others : cells.filter (·.position.row != row) = cells'.filter (·.position.row != row)

/-- Cells that are paired by their places. -/
def Paired (row : UInt32) : List Cell → List Cell → Prop :=
  List.Forall₂ fun c c' => c.position = c'.position ∧ (c.position.row ≠ row → c = c')

theorem Relabeled.paired {row : UInt32} {cells cells' : List Cell}
    (relabeled : Relabeled row cells cells') : Paired row cells cells' := by
  obtain ⟨places, others⟩ := relabeled
  induction cells generalizing cells' with
  | nil =>
      rw [List.map_eq_nil_iff.1 places.symm]
      exact .nil
  | cons c cells ih =>
      obtain ⟨c', cells', rfl, place, places⟩ := List.map_eq_cons_iff.1 places.symm
      by_cases off : c.position.row = row
      · simp only [List.filter_cons, place, off, bne_self_eq_false] at others
        exact .cons ⟨place.symm, fun outside => absurd off outside⟩ (ih places.symm others)
      · simp only [List.filter_cons, place, bne_iff_ne.2 off, if_true, List.cons.injEq] at others
        exact .cons ⟨place.symm, fun _ => others.1⟩ (ih places.symm others.2)

/-- Outside of the row nothing differs. -/
theorem Paired.eq {row : UInt32} {cells cells' : List Cell} (paired : Paired row cells cells')
    (outside : ∀ c ∈ cells, c.position.row ≠ row) : cells = cells' := by
  induction paired with
  | nil => rfl
  | @cons c c' cells cells' same others ih =>
      obtain ⟨off, outside⟩ := List.forall_mem_cons.1 outside
      rw [same.2 off, ih outside]

/-- Reads a layout on from the cells behind the gap. -/
def readOn (gapColumn : UInt32) (syn : TableSyntax) (cells : List Cell) :
    Except TableError (Layout × List Cell) :=
  match marker? syn.marker cells with
  | none => .error (.missingMarker syn.marker)
  | some (row, cells) =>
    let onRow (cell : Cell) : Bool := cell.position.row == row
    let bindings := (cells.takeWhile onRow).map fun c => (c.position.column, c.value.render)
    .ok (⟨gapColumn, row, ColumnMap.ofList bindings⟩, cells.dropWhile onRow)

theorem detect_eq (grid : Grid) (syn : TableSyntax) :
    detect grid syn =
      match gap? grid.extent.first grid.extent.first.column grid.cells with
      | none => .error (.noGap grid.extent.first.row)
      | some (gapColumn, cells) => readOn gapColumn syn cells := rfl

/-- The labels that are read, with their columns: of those behind the cell that ends the search for
    the gap, the ones from the first marker on. -/
def headings (grid : Grid) (syn : TableSyntax) : ColumnMap :=
  let start := grid.extent.first
  match gap? start start.column grid.cells with
  | none => []
  | some (_, rest) =>
    let labels := rest.takeWhile (·.position.row == start.row)
    ColumnMap.ofRow CellValue.render (labels.dropWhile (·.value.render != syn.marker))

theorem marker?_append (marker : String) (labels low : List Cell) :
    marker? marker (labels ++ low) =
      match labels.dropWhile (·.value.render != marker) with
      | [] => marker? marker low
      | cell :: others => some (cell.position.row, others ++ low) := by
  induction labels with
  | nil => rfl
  | cons cell labels ih =>
      rw [List.cons_append, marker?, List.dropWhile_cons]
      by_cases reads : cell.value.render = marker
      · simp [reads]
      · simp [reads, ih]

/-- Behind the gap, a layout is made from the headings and the rows below. -/
theorem readOn_append (gapColumn : UInt32) (syn : TableSyntax) {row : UInt32}
    {labels low : List Cell} (level : ∀ c ∈ labels, c.position.row = row)
    (below : ∀ c ∈ low, c.position.row ≠ row) :
    readOn gapColumn syn (labels ++ low) =
      match ColumnMap.ofRow CellValue.render
        (labels.dropWhile (·.value.render != syn.marker)) with
      | [] => readOn gapColumn syn low
      | _ :: templates => .ok (⟨gapColumn, row, ColumnMap.ofList templates⟩, low) := by
  have kept := (List.dropWhile_suffix (l := labels) (·.value.render != syn.marker)).subset
  rw [readOn, marker?_append]
  cases found : labels.dropWhile (·.value.render != syn.marker) with
  | nil => rfl
  | cons cell others =>
      rw [found] at kept
      have here : cell.position.row = row := level cell (kept List.mem_cons_self)
      have onRow : ∀ c ∈ others, (c.position.row == row) = true := fun c mem =>
        beq_iff_eq.2 (level c (kept (List.mem_cons_of_mem _ mem)))
      have off : low.takeWhile (·.position.row == row) = [] ∧
          low.dropWhile (·.position.row == row) = low := by
        cases low with
        | nil => exact ⟨rfl, rfl⟩
        | cons c low => simp [below c List.mem_cons_self]
      simp only [here, List.takeWhile_append_of_pos onRow, List.dropWhile_append_of_pos onRow, off,
        List.append_nil]
      rfl

/-- Behind the cell that ends the search for the gap come the other labels, and then the rows below
    the header. -/
theorem level_below_of_gap? {extent : Extent} {cells rest : List Cell} {gapColumn : UInt32}
    (found : gap? extent.first extent.first.column (Grid.ofExtent extent cells).cells =
      some (gapColumn, rest)) :
    (∀ c ∈ rest.takeWhile (·.position.row == extent.first.row),
      c.position.row = extent.first.row) ∧
    ∀ c ∈ rest.dropWhile (·.position.row == extent.first.row),
      c.position.row ≠ extent.first.row := by
  obtain ⟨header, next, split, cut⟩ := exists_cut_of_gap? found
  have ordered := Grid.ordered_ofExtent extent cells
  rw [split] at ordered
  obtain ⟨right, low⟩ := ordered.behind
  rw [cut.row] at right low
  rw [right, low]
  refine ⟨fun c mem => ?_, fun c mem => ?_⟩
  · rw [(Cell.mem_rightOf.1 mem).2.1, cut.row]
  · have : extent.first.row < c.position.row := by simpa using (List.mem_filter.1 mem).2
    exact (UInt32.ne_of_lt this).symm

/-- Labels that are not read do not matter. -/
theorem detect_eq_of_headings {extent : Extent} {cells cells' : List Cell} {syn : TableSyntax}
    (relabeled : Relabeled extent.first.row (Grid.ofExtent extent cells).cells
      (Grid.ofExtent extent cells').cells)
    (same : headings (.ofExtent extent cells) syn = headings (.ofExtent extent cells') syn) :
    detect (.ofExtent extent cells) syn = detect (.ofExtent extent cells') syn := by
  have extents (cells) : (Grid.ofExtent extent cells).extent = extent := rfl
  have gap := gap?_related (fun _ _ pair => Position.moved_zero_iff.2 pair.1)
    (Position.moved_zero_iff.2 (Eq.refl extent.first)) (Offset.zero_iff.2 rfl)
    (Grid.ordered_ofExtent extent cells) (fun c => Grid.ahead_of_mem) relabeled.paired
  simp only [detect_eq, headings, extents] at same ⊢
  generalize found : gap? _ _ (Grid.ofExtent extent cells).cells = left at gap same ⊢
  generalize found' : gap? _ _ (Grid.ofExtent extent cells').cells = right at gap same ⊢
  cases gap with
  | none => rfl
  | @some r r' gap =>
      obtain ⟨gapColumn, rest⟩ := r
      obtain ⟨gapColumn', rest'⟩ := r'
      obtain ⟨column, others⟩ := gap
      obtain rfl := Offset.zero_iff.1 column
      dsimp only at same others ⊢
      obtain ⟨level, below⟩ := level_below_of_gap? found
      obtain ⟨level', below'⟩ := level_below_of_gap? found'
      have behind := (forall₂_takeWhile (·.position.row == extent.first.row)
        (·.position.row == extent.first.row) (fun c c' pair => by rw [pair.1]) others).2
      have low := Paired.eq behind below
      rw [← List.takeWhile_append_dropWhile (p := (·.position.row == extent.first.row)) (l := rest),
        ← List.takeWhile_append_dropWhile (p := (·.position.row == extent.first.row))
          (l := rest'),
        readOn_append gapColumn syn level below, readOn_append gapColumn syn level' below', same,
        low]

end Layout

namespace Grid

/-- Two tables that differ in labels alone compile alike, to the same rules or with the same error,
    if the labels that are read agree. None is read if none of those behind the cell that ends the
    search for the gap reads as the marker. -/
theorem compile_eq_of_headings {extent : Extent} {cells cells' : List Cell} {syn : TableSyntax}
    (relabeled : Layout.Relabeled extent.first.row (ofExtent extent cells).cells
      (ofExtent extent cells').cells)
    (same : Layout.headings (ofExtent extent cells) syn =
      Layout.headings (ofExtent extent cells') syn) :
    (ofExtent extent cells).compile syn = (ofExtent extent cells').compile syn := by
  rw [compile, compile, Layout.detect_eq_of_headings relabeled same]

/-- A table whose labels are given. -/
def labeled (corner condition consequence other : CellValue) : Grid :=
  ofExtent ⟨⟨0, 0⟩, ⟨2, 4⟩⟩
    [⟨⟨0, 0⟩, corner⟩, ⟨⟨0, 1⟩, condition⟩, ⟨⟨0, 3⟩, consequence⟩, ⟨⟨0, 4⟩, other⟩,
      ⟨⟨1, 0⟩, .text "BINDING"⟩, ⟨⟨1, 1⟩, .text "this.amount > $value"⟩,
      ⟨⟨1, 3⟩, .text "this.ok = $value"⟩, ⟨⟨1, 4⟩, .text "this.why = '$value'"⟩,
      ⟨⟨2, 0⟩, .text "big"⟩, ⟨⟨2, 1⟩, .text "100"⟩, ⟨⟨2, 3⟩, .bool true⟩, ⟨⟨2, 4⟩, .text "size"⟩]

theorem compile_eq_of_headings_marked :
    let grid := labeled (.text "rule") (.text "amount") (.text "ok") (.text "why")
    let other := labeled (.bool true) (.text "BINDING") (.text "BINDING") (.text "")
    Layout.Relabeled 0 grid.cells other.cells ∧ grid ≠ other ∧
      Layout.headings grid {} = Layout.headings other {} ∧
      grid.compile {} = other.compile {} := by
  intro grid other
  have relabeled : Layout.Relabeled 0 grid.cells other.cells :=
    ⟨by decide +kernel, by decide +kernel⟩
  have same : Layout.headings grid {} = Layout.headings other {} := by decide +kernel
  exact ⟨relabeled, by decide +kernel, same, compile_eq_of_headings relabeled same⟩

/-- A label behind the cell that ends the search for the gap is taken for the marker. -/
theorem compile_ne_of_label_marked :
    let grid := labeled (.text "rule") (.text "amount") (.text "ok") (.text "why")
    let other := labeled (.text "rule") (.text "amount") (.text "ok") (.text "BINDING")
    Layout.Relabeled 0 grid.cells other.cells ∧
      (grid.compile {}).toOption.map RuleSet.names = some ["big"] ∧
      (other.compile {}).toOption = none := by
  intro grid other
  exact ⟨⟨by decide +kernel, by decide +kernel⟩, by decide +kernel, by decide +kernel⟩

end Grid

end DecisionTable
