import DecisionTable.Proofs.Sheet.Order
import DecisionTable.Sheet.Layout

/-! # What a layout takes from the grid

The three scans over the cells go on from each other, so each of them leaves an end of the
cells. Behind the marker that end is the rest of its row and the rows below. So the templates
are the cells right of the marker, and what is left are the cells below its row, each of them
once.
-/

namespace DecisionTable

namespace ColumnMap

theorem insert_of_last {entries : ColumnMap} {column : UInt32} {text : String}
    (last : ∀ entry ∈ entries, entry.1 < column) :
    insert column text entries = entries ++ [(column, text)] := by
  induction entries with
  | nil => rfl
  | cons entry entries ih =>
      obtain ⟨first, others⟩ := List.forall_mem_cons.1 last
      have differ : column ≠ entry.1 := fun eq => UInt32.lt_irrefl column (eq ▸ first)
      rw [insert, if_neg (UInt32.lt_asymm first), if_neg differ, ih others, List.cons_append]

/-- Texts that come by ascending columns are stored as they come. -/
theorem ofList_of_ascending {entries : List (UInt32 × String)}
    (ascending : entries.Pairwise (·.1 < ·.1)) : ofList entries = entries := by
  have stored (entries : List (UInt32 × String)) (map : ColumnMap)
      (ascending : (map ++ entries).Pairwise (·.1 < ·.1)) :
      entries.foldl (fun map entry => insert entry.1 entry.2 map) map = map ++ entries := by
    induction entries generalizing map with
    | nil => exact (List.append_nil map).symm
    | cons entry entries ih =>
        have last (e) (mem : e ∈ map) : e.1 < entry.1 :=
          (List.pairwise_append.1 ascending).2.2 e mem entry List.mem_cons_self
        rw [List.append_cons] at ascending ⊢
        rw [List.foldl_cons, insert_of_last last, ih _ ascending]
  exact stored entries [] ascending

/-- Each cell of a row with its column and its text. -/
def ofRow (text : CellValue → String) (cells : List Cell) : ColumnMap :=
  cells.map fun c => (c.position.column, text c.value)

theorem ofList_ofRow (text : CellValue → String) {cells : List Cell}
    (ascending : cells.Pairwise fun a b => a.position.column < b.position.column) :
    ofList (ofRow text cells) = ofRow text cells :=
  ofList_of_ascending (List.pairwise_map.2 ascending)

end ColumnMap

namespace Layout

/-- The header is a front of the cells. -/
theorem gap?_suffix {start : Position} {last gapColumn : UInt32} {cells rest : List Cell}
    (h : gap? start last cells = some (gapColumn, rest)) : rest <:+ cells := by
  induction cells generalizing last with
  | nil => cases h
  | cons cell cells ih =>
      rw [gap?] at h
      split at h
      · exact (ih h).trans (List.suffix_cons cell cells)
      · split at h
        · cases h
        · split at h
          · exact (ih h).trans (List.suffix_cons cell cells)
          · cases h
            exact List.suffix_cons cell _

/-- The search stops right behind the first cell that reads as the marker. -/
theorem marker?_eq_some_iff {text : String} {row : UInt32} {cells rest : List Cell} :
    marker? text cells = some (row, rest) ↔
      ∃ front cell, cells = front ++ cell :: rest ∧ cell.position.row = row ∧
        cell.value.render = text ∧ ∀ c ∈ front, c.value.render ≠ text := by
  induction cells with
  | nil => simp [marker?]
  | cons cell cells ih =>
      rw [marker?]
      split
      case isTrue here =>
        constructor
        · rintro ⟨⟩
          exact ⟨[], cell, rfl, rfl, here, fun c mem => nomatch mem⟩
        · rintro ⟨_ | ⟨first, front⟩, found, split, rfl, -, earlier⟩ <;> cases split
          · rfl
          · exact absurd here (earlier cell List.mem_cons_self)
      case isFalse notHere =>
        rw [ih]
        constructor
        · rintro ⟨front, found, rfl, row, reads, earlier⟩
          exact ⟨cell :: front, found, rfl, row, reads,
            List.forall_mem_cons.2 ⟨notHere, earlier⟩⟩
        · rintro ⟨_ | ⟨first, front⟩, found, split, row, reads, earlier⟩ <;> cases split
          · exact absurd reads notHere
          · exact ⟨front, found, rfl, row, reads, (List.forall_mem_cons.1 earlier).2⟩

theorem marker?_eq_none_iff {text : String} {cells : List Cell} :
    marker? text cells = none ↔ ∀ c ∈ cells, c.value.render ≠ text := by
  induction cells with
  | nil => simp [marker?]
  | cons cell cells ih =>
      rw [marker?, List.forall_mem_cons]
      split
      case isTrue here => simp [here]
      case isFalse notHere => simp [notHere, ih]

/-- Behind a cell its row goes on with the templates, and the cells below the row are left. -/
theorem templates_behind {front rest : List Cell} {marker : Cell}
    (ordered : Cell.Ordered (front ++ marker :: rest)) :
    ColumnMap.ofList ((rest.takeWhile (·.position.row == marker.position.row)).map
        fun c => (c.position.column, c.value.render)) =
      ColumnMap.ofRow CellValue.render (marker.rightOf (front ++ marker :: rest)) ∧
    rest.dropWhile (·.position.row == marker.position.row) =
      Cell.below marker.position.row (front ++ marker :: rest) := by
  obtain ⟨right, low⟩ := ordered.behind
  refine ⟨?_, low⟩
  rw [right]
  exact ColumnMap.ofList_ofRow _ (ordered.columns_rightOf marker)

/-- The templates stand right of a cell that reads as the marker, and the cells below its row are
    left. -/
theorem detect_eq_ok {grid : Grid} {syn : TableSyntax} {layout : Layout} {rest : List Cell}
    (ordered : Cell.Ordered grid.cells) (h : detect grid syn = .ok (layout, rest)) :
    ∃ marker ∈ grid.cells, marker.value.render = syn.marker ∧
      marker.position.row = layout.bindingRow ∧
      layout.bindings = ColumnMap.ofRow CellValue.render (marker.rightOf grid.cells) ∧
      rest = Cell.below layout.bindingRow grid.cells := by
  rw [detect] at h
  split at h
  · cases h
  · rename_i gapColumn cells foundGap
    split at h
    · cases h
    · rename_i row behind foundMarker
      obtain ⟨header, split⟩ := gap?_suffix foundGap
      obtain ⟨front, marker, rfl, rfl, reads, -⟩ := marker?_eq_some_iff.1 foundMarker
      rw [← List.append_assoc] at split
      rw [← split] at ordered ⊢
      obtain ⟨templates, low⟩ := templates_behind ordered
      cases h
      exact ⟨marker, by simp, reads, rfl, templates, low⟩

end Layout

end DecisionTable
