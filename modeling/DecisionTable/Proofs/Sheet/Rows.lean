import DecisionTable.Proofs.Sheet.Layout
import DecisionTable.Sheet.Records
import Mathlib.Data.List.Induction

/-! # Rows of rules

Cells in order fall into rows, without loss and in order: the first cell of each is the
leftmost one, and the others stand right of it. A name has one record, in the place where the
name first appears and with the texts of the last row of that name.
-/

namespace DecisionTable

namespace RuleRow

/-- The cells of a row. -/
def stretch (row : RuleRow) : List Cell := row.label :: row.others

/-- No cell is lost, and none comes twice. -/
theorem flatMap_ofCells (cells : List Cell) : (ofCells cells).flatMap stretch = cells := by
  induction cells with
  | nil => rfl
  | cons cell cells ih =>
      rw [ofCells]
      split
      case h_1 empty =>
        rw [empty] at ih
        rw [← ih]
        rfl
      case h_2 row rows found =>
        rw [found] at ih
        split <;> simpa [stretch] using ih

theorem row_eq_of_mem_others {cells : List Cell} {row : RuleRow} (mem : row ∈ ofCells cells)
    {c : Cell} (other : c ∈ row.others) : c.position.row = row.label.position.row := by
  induction cells generalizing row c with
  | nil => cases mem
  | cons cell cells ih =>
      rw [ofCells] at mem
      split at mem
      case h_1 =>
        cases List.mem_singleton.1 mem
        cases other
      case h_2 next rows found =>
        rw [found] at ih
        split at mem
        case isTrue same =>
          rcases List.mem_cons.1 mem with rfl | mem
          · rcases List.mem_cons.1 other with rfl | other
            · exact same.symm
            · exact (ih List.mem_cons_self other).trans same.symm
          · exact ih (List.mem_cons_of_mem _ mem) other
        case isFalse =>
          rcases List.mem_cons.1 mem with rfl | mem
          · cases other
          · exact ih mem other

theorem label_mem {cells : List Cell} {row : RuleRow} (mem : row ∈ ofCells cells) :
    row.label ∈ cells := by
  rw [← flatMap_ofCells cells]
  exact List.mem_flatMap.2 ⟨row, mem, List.mem_cons_self⟩

theorem rows_ascend {cells : List Cell} (ordered : Cell.Ordered cells) :
    (ofCells cells).Pairwise fun a b => a.label.position.row < b.label.position.row := by
  induction cells with
  | nil => exact List.Pairwise.nil
  | cons cell cells ih =>
      obtain ⟨first, ordered⟩ := List.pairwise_cons.1 ordered
      have ascend := ih ordered
      have below (row : RuleRow) (mem : row ∈ ofCells cells) :=
        Position.row_le_of_before (first _ (label_mem mem))
      rw [ofCells]
      split
      case h_1 => exact List.pairwise_singleton _ _
      case h_2 next rows found =>
        rw [found] at ascend below
        split
        case isTrue same =>
          rw [List.pairwise_cons] at ascend ⊢
          exact same ▸ ascend
        case isFalse differ =>
          have lower := UInt32.lt_of_le_of_ne (below next List.mem_cons_self) differ
          refine List.pairwise_cons.2 ⟨fun row mem => ?_, ascend⟩
          rcases List.mem_cons.1 mem with rfl | mem
          · exact lower
          · exact UInt32.lt_trans lower ((List.pairwise_cons.1 ascend).1 row mem)

/-- A row is one stretch of the cells, between the cells above and those below. -/
theorem ofCells_split {cells : List Cell} (ordered : Cell.Ordered cells) {row : RuleRow}
    (mem : row ∈ ofCells cells) :
    ∃ above low, cells = above ++ row.label :: (row.others ++ low) ∧
      (∀ c ∈ above, c.position.row < row.label.position.row) ∧
      (∀ c ∈ row.others, c.position.row = row.label.position.row) ∧
      ∀ c ∈ low, row.label.position.row < c.position.row := by
  obtain ⟨front, behind, split⟩ := List.append_of_mem mem
  have ascend := rows_ascend ordered
  have whole := flatMap_ofCells cells
  have level (other : RuleRow) (mem : other ∈ ofCells cells) (c : Cell)
      (own : c ∈ other.stretch) : c.position.row = other.label.position.row := by
    rcases List.mem_cons.1 own with rfl | own
    · rfl
    · exact row_eq_of_mem_others mem own
  rw [split] at ascend whole level
  obtain ⟨-, lower, upper⟩ := List.pairwise_append.1 ascend
  refine ⟨front.flatMap stretch, behind.flatMap stretch, by simpa [stretch] using whole.symm,
    fun c mem => ?_, fun c => row_eq_of_mem_others mem, fun c mem => ?_⟩
  · obtain ⟨other, mem, own⟩ := List.mem_flatMap.1 mem
    rw [level other (by simp [mem]) c own]
    exact upper other mem row List.mem_cons_self
  · obtain ⟨other, mem, own⟩ := List.mem_flatMap.1 mem
    rw [level other (by simp [mem]) c own]
    exact (List.pairwise_cons.1 lower).1 other mem

theorem others_eq {cells : List Cell} (ordered : Cell.Ordered cells) {row : RuleRow}
    (mem : row ∈ ofCells cells) : row.others = row.label.rightOf cells := by
  obtain ⟨above, low, split, -, level, lower⟩ := ofCells_split ordered mem
  rw [split] at ordered ⊢
  have gone : low.takeWhile (·.position.row == row.label.position.row) = [] := by
    cases low with
    | nil => rfl
    | cons c low =>
        have := lower c List.mem_cons_self
        simp [(UInt32.ne_of_lt this).symm]
  rw [← ordered.behind.1, List.takeWhile_append_of_pos (by simpa using level), gone,
    List.append_nil]

theorem label_isLeftmost {cells : List Cell} (ordered : Cell.Ordered cells) {row : RuleRow}
    (mem : row ∈ ofCells cells) : row.label.isLeftmost cells = true := by
  obtain ⟨above, low, split, upper, -, lower⟩ := ofCells_split ordered mem
  rw [Cell.isLeftmost_iff]
  intro c memC same
  -- A cell of the row is the label itself or stands right of it.
  have own : c = row.label ∨ c ∈ row.label.rightOf cells := by
    rw [← others_eq ordered mem]
    rw [split, List.mem_append, List.mem_cons, List.mem_append] at memC
    rcases memC with memC | rfl | memC | memC
    · exact absurd same (UInt32.ne_of_lt (upper c memC))
    · exact .inl rfl
    · exact .inr memC
    · exact absurd same.symm (UInt32.ne_of_lt (lower c memC))
  rcases own with rfl | right
  · exact UInt32.le_refl _
  · exact UInt32.le_of_lt (Cell.mem_rightOf.1 right).2.2

theorem labels_eq {cells : List Cell} (ordered : Cell.Ordered cells) :
    (ofCells cells).map label = cells.filter (·.isLeftmost cells) := by
  have kept (row : RuleRow) (mem : row ∈ ofCells cells) :
      row.stretch.filter (·.isLeftmost cells) = [row.label] := by
    rw [stretch, List.filter_cons, if_pos (label_isLeftmost ordered mem), List.filter_eq_nil_iff.2]
    intro c other leftmost
    rw [others_eq ordered mem, Cell.mem_rightOf] at other
    exact UInt32.not_lt.2 (Cell.isLeftmost_iff.1 leftmost _ (label_mem mem) other.2.1.symm)
      other.2.2
  calc (ofCells cells).map label
      = (ofCells cells).flatMap fun row => [row.label] := List.map_eq_flatMap
    _ = (ofCells cells).flatMap fun row => row.stretch.filter (·.isLeftmost cells) := by
        rw [List.flatMap_def, List.flatMap_def,
          List.map_congr_left fun row mem => (kept row mem).symm]
    _ = ((ofCells cells).flatMap stretch).filter (·.isLeftmost cells) :=
        List.filter_flatMap.symm
    _ = cells.filter (·.isLeftmost cells) := by rw [flatMap_ofCells]

/-- The name of the rule in a row. -/
def name (row : RuleRow) : String := row.label.value.render

end RuleRow

/-- The texts in the row of a label, on the two sides of the gap. -/
def RuleRecord.ofLabel (gapColumn : UInt32) (cells : List Cell) (label : Cell) : RuleRecord where
  conditions := ColumnMap.ofRow CellValue.render
    ((label.rightOf cells).filter (·.position.column < gapColumn))
  consequences := ColumnMap.ofRow consequenceText
    ((label.rightOf cells).filter (gapColumn ≤ ·.position.column))

theorem RuleRow.record_eq {gapColumn : UInt32} {cells : List Cell} (ordered : Cell.Ordered cells)
    {row : RuleRow} (mem : row ∈ ofCells cells) :
    row.record gapColumn = .ofLabel gapColumn cells row.label := by
  have ascending := ordered.columns_rightOf row.label
  have conditions := ColumnMap.ofList_ofRow CellValue.render
    (ascending.filter (·.position.column < gapColumn))
  have consequences := ColumnMap.ofList_ofRow consequenceText
    (ascending.filter (gapColumn ≤ ·.position.column))
  have complement : (fun c : Cell => !decide (c.position.column < gapColumn)) =
      fun c => decide (gapColumn ≤ c.position.column) := by
    funext c
    rw [← decide_not, decide_eq_decide, UInt32.not_lt]
  rw [RuleRecord.ofLabel, ← conditions, ← consequences, record, others_eq ordered mem, complement]
  rfl

/-- The leftmost cell of the last row of a name: the cell that reads so, with no other of these
    further down. -/
structure LastLabel (cells : List Cell) (name : String) (label : Cell) : Prop where
  mem : label ∈ cells
  leftmost : label.isLeftmost cells = true
  reads : label.value.render = name
  last : ∀ other ∈ cells, other.isLeftmost cells = true → other.value.render = name →
    other.position.row ≤ label.position.row

theorem eraseDups_concat (xs : List String) (x : String) :
    (xs ++ [x]).eraseDups = if x ∈ xs then xs.eraseDups else xs.eraseDups ++ [x] := by
  rw [List.eraseDups_append, List.removeAll, List.filter_cons, List.filter_nil]
  by_cases mem : x ∈ xs <;> simp [mem, List.eraseDups_cons]

theorem nodup_eraseDups (xs : List String) : xs.eraseDups.Nodup := by
  induction xs using List.reverseRecOn with
  | nil => exact List.nodup_nil
  | append_singleton xs x ih =>
      rw [eraseDups_concat]
      split
      case isTrue => exact ih
      case isFalse absent =>
        refine List.nodup_append.2 ⟨ih, List.pairwise_singleton _ x, fun y mem z last => ?_⟩
        rw [List.mem_singleton.1 last]
        exact fun same => absent (same ▸ List.mem_eraseDups.1 mem)

namespace RuleRecords

theorem names_insert (name : String) (record : RuleRecord) (records : RuleRecords) :
    (insert name record records).map Prod.fst =
      if name ∈ records.map Prod.fst then records.map Prod.fst
      else records.map Prod.fst ++ [name] := by
  induction records with
  | nil => rfl
  | cons entry records ih =>
      obtain ⟨n, r⟩ := entry
      rw [insert]
      by_cases same : n = name
      · simp [same]
      · rw [if_neg same, List.map_cons, ih]
        by_cases mem : name ∈ records.map Prod.fst <;> simp [mem, Ne.symm same]

theorem mem_insert {name n : String} {record r : RuleRecord} {records : RuleRecords}
    (distinct : (records.map Prod.fst).Nodup) :
    (n, r) ∈ insert name record records ↔
      n = name ∧ r = record ∨ n ≠ name ∧ (n, r) ∈ records := by
  induction records with
  | nil => simp [insert]
  | cons entry records ih =>
      obtain ⟨m, q⟩ := entry
      obtain ⟨apart, distinct⟩ := List.nodup_cons.1 distinct
      have other (mem : (n, r) ∈ records) : n ≠ m := fun same =>
        apart (List.mem_map.2 ⟨_, mem, same⟩)
      rw [insert]
      split
      case isTrue same =>
        subst same
        simp only [List.mem_cons, Prod.mk.injEq]
        grind
      case isFalse differ =>
        simp only [List.mem_cons, Prod.mk.injEq, ih distinct]
        grind

theorem names_store (gapColumn : UInt32) (rows : List RuleRow) :
    (rows.foldl (fun records row => insert row.name (row.record gapColumn) records) []).map
      Prod.fst = (rows.map RuleRow.name).eraseDups := by
  induction rows using List.reverseRecOn with
  | nil => rfl
  | append_singleton rows row ih =>
      rw [List.foldl_append, List.foldl_cons, List.foldl_nil, names_insert, ih, List.map_append,
        List.map_singleton, eraseDups_concat]
      simp only [List.mem_eraseDups]

theorem mem_store_iff {gapColumn : UInt32} {rows : List RuleRow}
    (ascend : rows.Pairwise fun a b => a.label.position.row < b.label.position.row)
    {n : String} {r : RuleRecord} :
    (n, r) ∈ rows.foldl (fun records row => insert row.name (row.record gapColumn) records) [] ↔
      ∃ row ∈ rows, row.name = n ∧ r = row.record gapColumn ∧
        ∀ other ∈ rows, other.name = n → other.label.position.row ≤ row.label.position.row := by
  induction rows using List.reverseRecOn with
  | nil => simp
  | append_singleton rows row ih =>
      obtain ⟨ascend, -, above⟩ := List.pairwise_append.1 ascend
      rw [List.foldl_append, List.foldl_cons, List.foldl_nil,
        mem_insert (by rw [names_store]; exact nodup_eraseDups _), ih ascend]
      have above (other : RuleRow) (mem : other ∈ rows) := above other mem row List.mem_cons_self
      constructor
      · rintro (⟨rfl, rfl⟩ | ⟨differ, kept, mem, reads, rfl, last⟩)
        · refine ⟨row, List.mem_append_right _ List.mem_cons_self, rfl, rfl, fun other mem _ => ?_⟩
          rcases List.mem_append.1 mem with mem | mem
          · exact UInt32.le_of_lt (above other mem)
          · rw [List.mem_singleton.1 mem]
            exact UInt32.le_refl _
        · refine ⟨kept, List.mem_append_left _ mem, reads, rfl, fun other mem same => ?_⟩
          rcases List.mem_append.1 mem with mem | mem
          · exact last other mem same
          · rw [List.mem_singleton.1 mem] at same
            exact absurd same.symm differ
      · rintro ⟨kept, mem, reads, rfl, last⟩
        rcases List.mem_append.1 mem with mem | mem
        · refine .inr ⟨fun same => ?_, kept, mem, reads, rfl, fun other mem =>
            last other (List.mem_append_left _ mem)⟩
          exact UInt32.not_lt.2
            (last row (List.mem_append_right _ List.mem_cons_self) same.symm) (above kept mem)
        · cases List.mem_singleton.1 mem
          exact .inl ⟨reads.symm, rfl⟩

/-- The names of the records are the texts of the leftmost cells. -/
theorem names_ofCells (gapColumn : UInt32) {cells : List Cell} (ordered : Cell.Ordered cells) :
    (ofCells gapColumn cells).map Prod.fst =
      ((cells.filter (·.isLeftmost cells)).map (·.value.render)).eraseDups := by
  rw [← RuleRow.labels_eq ordered, List.map_map]
  exact names_store gapColumn (RuleRow.ofCells cells)

/-- A name has the record of its last row. -/
theorem mem_ofCells_iff (gapColumn : UInt32) {cells : List Cell} (ordered : Cell.Ordered cells)
    {n : String} {r : RuleRecord} :
    (n, r) ∈ ofCells gapColumn cells ↔
      ∃ label, LastLabel cells n label ∧ r = .ofLabel gapColumn cells label := by
  have labels (label : Cell) : label ∈ cells ∧ label.isLeftmost cells = true ↔
      ∃ row ∈ RuleRow.ofCells cells, row.label = label := by
    rw [← List.mem_map, RuleRow.labels_eq ordered, List.mem_filter]
  refine (mem_store_iff (RuleRow.rows_ascend ordered)).trans ?_
  constructor
  · rintro ⟨row, mem, reads, rfl, last⟩
    obtain ⟨memLabel, leftmost⟩ := (labels row.label).2 ⟨row, mem, rfl⟩
    refine ⟨row.label, ⟨memLabel, leftmost, reads, ?_⟩, RuleRow.record_eq ordered mem⟩
    intro other memOther leftmostOther same
    obtain ⟨row', mem', rfl⟩ := (labels other).1 ⟨memOther, leftmostOther⟩
    exact last row' mem' same
  · rintro ⟨label, last, rfl⟩
    obtain ⟨row, mem, rfl⟩ := (labels label).1 ⟨last.mem, last.leftmost⟩
    refine ⟨row, mem, last.reads, (RuleRow.record_eq ordered mem).symm, ?_⟩
    intro other memOther same
    obtain ⟨memLabel, leftmost⟩ := (labels other.label).2 ⟨other, memOther, rfl⟩
    exact last.last other.label memLabel leftmost same

end RuleRecords

end DecisionTable
