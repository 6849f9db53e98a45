import DecisionTable.Proofs.Alike
import DecisionTable.Proofs.Json.Number
import DecisionTable.Proofs.Sheet.Fragments
import DecisionTable.Proofs.Sheet.Gap

/-! # Copies of a table

A copy of a table has its cells at places that are all moved alike, and each cell reads as its
original, whatever it holds. Each stage of the compilation makes of a copy a copy of what it makes
of the original. So a copy compiles to the same rules, or fails with the same error at the moved
place (`compile_copy`).
-/

namespace DecisionTable

/-- `Offset d n m`: the number `m` is `n` moved by `d`. -/
def Offset (d : Int) (n m : UInt32) : Prop := (m.toNat : Int) = n.toNat + d

namespace Offset

variable {d : Int} {n n' m m' : UInt32}

theorem zero_iff : Offset 0 n m ↔ n = m := by
  rw [Offset, ← UInt32.toNat_inj]
  omega

theorem lt_iff (moved : Offset d n m) (moved' : Offset d n' m') : m < m' ↔ n < n' := by
  rw [Offset] at moved moved'
  rw [UInt32.lt_iff_toNat_lt, UInt32.lt_iff_toNat_lt]
  omega

theorem eq_iff (moved : Offset d n m) (moved' : Offset d n' m') : m = m' ↔ n = n' := by
  rw [Offset] at moved moved'
  rw [← UInt32.toNat_inj, ← UInt32.toNat_inj]
  omega

/-- Neither number is the last one that can be counted, since others are behind them. -/
theorem succ (moved : Offset d n m) (moved' : Offset d n' m') (right : n < n') :
    Offset d (n + 1) (m + 1) := by
  have successor := Layout.toNat_succ_of_lt right
  have successor' := Layout.toNat_succ_of_lt ((moved.lt_iff moved').2 right)
  rw [Offset] at *
  omega

end Offset

/-- A place and where it is moved to. -/
structure Position.Moved (dr dc : Int) (p q : Position) : Prop where
  row : Offset dr p.row q.row
  column : Offset dc p.column q.column

theorem Position.moved_zero_iff {p q : Position} : p.Moved 0 0 q ↔ p = q := by
  constructor
  · rintro ⟨row, column⟩
    exact congrArg₂ Position.mk (Offset.zero_iff.1 row) (Offset.zero_iff.1 column)
  · rintro rfl
    exact ⟨Offset.zero_iff.2 rfl, Offset.zero_iff.2 rfl⟩

theorem Position.Moved.eq_iff {dr dc : Int} {p p' q q' : Position} (moved : p.Moved dr dc q)
    (moved' : p'.Moved dr dc q') : q = q' ↔ p = p' := by
  have rows := moved.row.eq_iff moved'.row
  have columns := moved.column.eq_iff moved'.column
  cases p
  cases p'
  cases q
  cases q'
  simp_all

/-- A cell and its copy, which reads the same. -/
structure Cell.Copy (dr dc : Int) (c c' : Cell) : Prop where
  place : c.position.Moved dr dc c'.position
  reads : c'.value.render = c.value.render

/-- An error and the one that is reported for a copy of the table. -/
inductive TableError.Moved (dr dc : Int) : TableError → TableError → Prop
  | noGap {row row' : UInt32} (place : Offset dr row row') :
      TableError.Moved dr dc (.noGap row) (.noGap row')
  | missingMarker (marker : String) :
      TableError.Moved dr dc (.missingMarker marker) (.missingMarker marker)
  | missingBinding (rule : String) {column column' : UInt32} (place : Offset dc column column') :
      TableError.Moved dr dc (.missingBinding rule column) (.missingBinding rule column')
  | expression (rule fragment : String) (cause : ParseError) {column column' : UInt32}
      (place : Offset dc column column') :
      TableError.Moved dr dc (.expression rule column fragment cause)
        (.expression rule column' fragment cause)

variable {dr dc : Int}

theorem forall₂_takeWhile {α β : Type} {R : α → β → Prop} (test : α → Bool) (test' : β → Bool)
    (same : ∀ x y, R x y → test x = test' y) {xs : List α} {ys : List β}
    (related : List.Forall₂ R xs ys) :
    List.Forall₂ R (xs.takeWhile test) (ys.takeWhile test') ∧
      List.Forall₂ R (xs.dropWhile test) (ys.dropWhile test') := by
  induction related with
  | nil => exact ⟨.nil, .nil⟩
  | @cons x y xs ys first others ih =>
      rw [List.takeWhile_cons, List.takeWhile_cons, List.dropWhile_cons, List.dropWhile_cons,
        same x y first]
      split
      · exact ⟨.cons first ih.1, ih.2⟩
      · exact ⟨.nil, .cons first others⟩

namespace ColumnMap

/-- Texts and the same texts at moved columns. -/
def Copy (dc : Int) : ColumnMap → ColumnMap → Prop :=
  List.Forall₂ fun e e' => Offset dc e.1 e'.1 ∧ e'.2 = e.2

variable {map map' : ColumnMap} {column column' : UInt32}

theorem insert_copy (copy : Copy dc map map') (moved : Offset dc column column')
    (text : String) : Copy dc (insert column text map) (insert column' text map') := by
  induction copy with
  | nil => exact .cons ⟨moved, rfl⟩ .nil
  | cons entry copy ih =>
      rw [insert, insert]
      simp only [moved.lt_iff entry.1, moved.eq_iff entry.1]
      split
      · exact .cons ⟨moved, rfl⟩ (.cons entry copy)
      · split
        · exact .cons ⟨moved, rfl⟩ copy
        · exact .cons entry ih

theorem ofList_copy {entries entries' : List (UInt32 × String)}
    (copy : Copy dc entries entries') : Copy dc (ofList entries) (ofList entries') := by
  refine List.rel_foldl (P := Copy dc) (fun _ _ copy _ _ entry => ?_) .nil copy
  rw [entry.2]
  exact insert_copy copy entry.1 _

theorem get?_copy (copy : Copy dc map map') (moved : Offset dc column column') :
    get? column' map' = get? column map := by
  induction copy with
  | nil => rfl
  | cons entry copy ih =>
      rw [get?, get?, ih, entry.2]
      simp only [entry.1.eq_iff moved]

theorem ofRow_copy (text : CellValue → String)
    (same : ∀ v v' : CellValue, v'.render = v.render → text v' = text v) {cells cells' : List Cell}
    (copies : List.Forall₂ (Cell.Copy dr dc) cells cells') :
    Copy dc (ofRow text cells) (ofRow text cells') := by
  rw [ofRow, ofRow, Copy, List.forall₂_map_left_iff, List.forall₂_map_right_iff]
  exact copies.imp fun c c' copy => ⟨copy.place.column, same _ _ copy.reads⟩

end ColumnMap

/-- A layout and that of a copy of its table. -/
structure Layout.Copy (dr dc : Int) (layout layout' : Layout) : Prop where
  gapColumn : Offset dc layout.gapColumn layout'.gapColumn
  bindingRow : Offset dr layout.bindingRow layout'.bindingRow
  bindings : ColumnMap.Copy dc layout.bindings layout'.bindings

/-- A table and its copy. -/
structure Grid.Copy (dr dc : Int) (grid grid' : Grid) : Prop where
  corner : grid.extent.first.Moved dr dc grid'.extent.first
  cells : List.Forall₂ (Cell.Copy dr dc) grid.cells grid'.cells

namespace Layout

/-- The search for the gap goes by places alone. -/
theorem gap?_related {R : Cell → Cell → Prop}
    (places : ∀ c c', R c c' → c.position.Moved dr dc c'.position) {start start' : Position}
    (corner : start.Moved dr dc start') {last last' : UInt32} (moved : Offset dc last last')
    {cells cells' : List Cell} (ordered : Cell.Ordered cells)
    (ahead : ∀ c ∈ cells, c.position = start ∨ Position.before ⟨start.row, last⟩ c.position = true)
    (related : List.Forall₂ R cells cells') :
    Option.Rel (fun r r' => Offset dc r.1 r'.1 ∧ List.Forall₂ R r.2 r'.2)
      (gap? start last cells) (gap? start' last' cells') := by
  induction related generalizing last last' with
  | nil => exact .none
  | @cons cell cell' cells cells' first others ih =>
      obtain ⟨behind, ordered⟩ := List.pairwise_cons.1 ordered
      obtain ⟨here, ahead⟩ := List.forall_mem_cons.1 ahead
      have place := places _ _ first
      rw [gap?, gap?]
      simp only [place.eq_iff corner, ne_eq, place.row.eq_iff corner.row]
      split
      case isTrue => exact ih moved ordered ahead
      case isFalse notCorner =>
        split
        case isTrue => exact .none
        case isFalse onRow =>
          have row : cell.position.row = start.row := Decidable.of_not_not onRow
          have right := Position.column_lt_of_before (here.resolve_left notCorner) row
          have next := moved.succ place.column right
          simp only [place.column.eq_iff next]
          split
          case isTrue =>
            exact ih place.column ordered fun c mem => .inr (row ▸ behind c mem)
          case isFalse => exact .some ⟨next, others⟩

theorem marker?_copy (marker : String) {cells cells' : List Cell}
    (copies : List.Forall₂ (Cell.Copy dr dc) cells cells') :
    Option.Rel (fun r r' => Offset dr r.1 r'.1 ∧ List.Forall₂ (Cell.Copy dr dc) r.2 r'.2)
      (marker? marker cells) (marker? marker cells') := by
  induction copies with
  | nil => exact .none
  | cons first others ih =>
      rw [marker?, marker?, first.reads]
      split
      · exact .some ⟨first.place.row, others⟩
      · exact ih

/-- The layout of a copy is a copy of the layout. -/
theorem detect_copy {extent : Extent} {cells : List Cell} {grid' : Grid}
    (copy : (Grid.ofExtent extent cells).Copy dr dc grid') (syn : TableSyntax) :
    Alike (TableError.Moved dr dc)
      (fun r r' => r.1.Copy dr dc r'.1 ∧ List.Forall₂ (Cell.Copy dr dc) r.2 r'.2)
      (detect (.ofExtent extent cells) syn) (detect grid' syn) := by
  have gap := gap?_related (fun _ _ copy => copy.place) copy.corner copy.corner.column
    (Grid.ordered_ofExtent extent cells) (fun c => Grid.ahead_of_mem) copy.cells
  rw [detect, detect]
  dsimp only
  generalize gap? _ _ (Grid.ofExtent extent cells).cells = found at gap
  generalize gap? _ _ grid'.cells = found' at gap
  cases gap with
  | none => exact .error (.noGap copy.corner.row)
  | @some r r' gap =>
      have marker := marker?_copy syn.marker gap.2
      dsimp only
      generalize marker? _ r.2 = found at marker
      generalize marker? _ r'.2 = found' at marker
      cases marker with
      | none => exact .error (.missingMarker syn.marker)
      | @some m m' marker =>
          obtain ⟨onRow, low⟩ := forall₂_takeWhile
            (·.position.row == m.1) (·.position.row == m'.1)
            (fun c c' copy => by
              rw [Bool.eq_iff_iff, beq_iff_eq, beq_iff_eq, copy.place.row.eq_iff marker.1])
            marker.2
          exact .ok ⟨⟨gap.1, marker.1, ColumnMap.ofList_copy
            (ColumnMap.ofRow_copy CellValue.render (fun _ _ reads => reads) onRow)⟩, low⟩

end Layout

/-- What a consequence makes of a cell hangs on what the cell reads as, since no number and no truth
    value reads as a word in capital letters. -/
theorem consequenceText_eq (value : CellValue) : consequenceText value =
    if value.render = "TRUE" then "true" else if value.render = "FALSE" then "false"
    else value.render := by
  cases value with
  | text s =>
      by_cases isTrue : s = "TRUE"
      · rw [isTrue]
        rfl
      · by_cases isFalse : s = "FALSE"
        · rw [isFalse]
          rfl
        · simp [consequenceText, CellValue.render, isTrue, isFalse]
  | number x =>
      obtain ⟨c, rest, text, head⟩ := x.head_text
      have isNot (letter : Char) (letters : List Char) (other : letter.isDigit = false)
          (other' : letter ∉ ['-', 'N', 'i']) : x.text.toList ≠ letter :: letters := by
        rintro same
        obtain ⟨rfl, -⟩ := List.cons.inj (text.symm.trans same)
        rcases head with digit | mark
        · rw [digit] at other
          cases other
        · exact other' mark
      have notTrue : x.text ≠ "TRUE" := fun same =>
        isNot 'T' ['R', 'U', 'E'] rfl (by decide) (by rw [same]; rfl)
      have notFalse : x.text ≠ "FALSE" := fun same =>
        isNot 'F' ['A', 'L', 'S', 'E'] rfl (by decide) (by rw [same]; rfl)
      rw [CellValue.render, if_neg notTrue, if_neg notFalse]
      rfl
  | bool value => cases value <;> decide

/-- A row of cells and its copy. -/
structure RuleRow.Copy (dr dc : Int) (row row' : RuleRow) : Prop where
  label : row.label.Copy dr dc row'.label
  others : List.Forall₂ (Cell.Copy dr dc) row.others row'.others

/-- The texts of a rule, and the same texts at moved columns. -/
structure RuleRecord.Copy (dc : Int) (r r' : RuleRecord) : Prop where
  conditions : ColumnMap.Copy dc r.conditions r'.conditions
  consequences : ColumnMap.Copy dc r.consequences r'.consequences

namespace RuleRow

theorem ofCells_copy {cells cells' : List Cell}
    (copies : List.Forall₂ (Cell.Copy dr dc) cells cells') :
    List.Forall₂ (Copy dr dc) (ofCells cells) (ofCells cells') := by
  induction copies with
  | nil => exact .nil
  | @cons cell cell' cells cells' first others ih =>
      rw [ofCells, ofCells]
      generalize ofCells cells = rows at ih
      generalize ofCells cells' = rows' at ih
      cases ih with
      | nil => exact .cons ⟨first, .nil⟩ .nil
      | @cons row row' rows rows' next below =>
          simp only [first.place.row.eq_iff next.label.place.row]
          split
          · exact .cons ⟨first, .cons next.label next.others⟩ below
          · exact .cons ⟨first, .nil⟩ (.cons next below)

theorem record_copy {gapColumn gapColumn' : UInt32} (gap : Offset dc gapColumn gapColumn')
    {row row' : RuleRow} (copy : row.Copy dr dc row') :
    (row.record gapColumn).Copy dc (row'.record gapColumn') := by
  have side (c c' : Cell) (copy : c.Copy dr dc c') :
      c.position.column < gapColumn ↔ c'.position.column < gapColumn' :=
    (copy.place.column.lt_iff gap).symm
  constructor
  · refine ColumnMap.ofList_copy (ColumnMap.ofRow_copy CellValue.render
      (fun _ _ reads => reads) (List.rel_filter (fun c c' copy => ?_) copy.others))
    simp only [decide_eq_true_eq]
    exact side c c' copy
  · refine ColumnMap.ofList_copy (ColumnMap.ofRow_copy consequenceText
      (fun _ _ reads => ?_) (List.rel_filter (fun c c' copy => ?_) copy.others))
    · rw [consequenceText_eq, consequenceText_eq, reads]
    · simp only [Bool.not_eq_true', decide_eq_false_iff_not]
      exact not_congr (side c c' copy)

end RuleRow

namespace RuleRecords

/-- Records, and copies of them with the same names. -/
def Copy (dc : Int) : RuleRecords → RuleRecords → Prop :=
  List.Forall₂ fun e e' => e'.1 = e.1 ∧ e.2.Copy dc e'.2

theorem insert_copy {records records' : RuleRecords} (copy : Copy dc records records')
    (name : String) {r r' : RuleRecord} (record : r.Copy dc r') :
    Copy dc (insert name r records) (insert name r' records') := by
  induction copy with
  | nil => exact .cons ⟨rfl, record⟩ .nil
  | cons entry copy ih =>
      rw [insert, insert, entry.1]
      split
      · exact .cons ⟨rfl, record⟩ copy
      · exact .cons ⟨rfl, entry.2⟩ ih

theorem ofCells_copy {gapColumn gapColumn' : UInt32} (gap : Offset dc gapColumn gapColumn')
    {cells cells' : List Cell} (copies : List.Forall₂ (Cell.Copy dr dc) cells cells') :
    Copy dc (ofCells gapColumn cells) (ofCells gapColumn' cells') := by
  refine List.rel_foldl (P := Copy dc) (fun _ _ copy row row' rows => ?_) .nil
    (RuleRow.ofCells_copy copies)
  rw [rows.label.reads]
  exact insert_copy copy _ (RuleRow.record_copy gap rows)

end RuleRecords

/-- The fragment at fault is one of those that were parsed. -/
theorem index_of_parsed {α β : Type} {parse : String → Except ParseError α} {f : List α → β}
    {fragments : List String} {e : FragmentError}
    (failed : (parseFragments parse 0 fragments).map f = .error e) :
    e.index < fragments.length := by
  rw [Parser.map_eq_error, parseFragments_eq_error_iff] at failed
  obtain ⟨before, fragment, after, rfl, -, place, -⟩ := failed
  rw [place, List.length_append, List.length_cons]
  omega

namespace Compile

variable {bindings bindings' : ColumnMap}

theorem fragments_copy (copied : ColumnMap.Copy dc bindings bindings') (rule placeholder : String)
    {texts texts' : ColumnMap} (copy : ColumnMap.Copy dc texts texts') :
    Alike (TableError.Moved dr dc)
      (List.Forall₂ fun part part' => Offset dc part.column part'.column ∧ part'.text = part.text)
      (fragments rule bindings placeholder texts)
      (fragments rule bindings' placeholder texts') := by
  induction copy with
  | nil => exact .ok .nil
  | @cons e e' texts texts' entry others ih =>
      rw [fragments, fragments, ColumnMap.get?_copy copied entry.1]
      cases bindings.get? e.1 with
      | none => exact .error (.missingBinding rule entry.1)
      | some template =>
          exact ih.map fun parts parts' related => .cons ⟨entry.1, by rw [entry.2]⟩ related

/-- The same texts are parsed, and the fragment at fault is the same. -/
theorem side_copy {α : Type} (copied : ColumnMap.Copy dc bindings bindings')
    (rule placeholder : String) {parse : List String → Except FragmentError α}
    (index : ∀ fragments e, parse fragments = .error e → e.index < fragments.length)
    {texts texts' : ColumnMap} (copy : ColumnMap.Copy dc texts texts') :
    Alike (TableError.Moved dr dc) (· = ·) (side rule bindings placeholder parse texts)
      (side rule bindings' placeholder parse texts') := by
  refine (fragments_copy copied rule placeholder copy).bind fun parts parts' related => ?_
  have same : parts'.map (·.text) = parts.map (·.text) := by
    rw [← List.forall₂_eq_eq_eq, List.forall₂_map_left_iff, List.forall₂_map_right_iff]
    exact related.flip.imp fun _ _ part => part.2
  rw [same]
  cases parsed : parse (parts.map (·.text)) with
  | ok a => exact .ok rfl
  | error e =>
      have inside : e.index < parts.length := by simpa using index _ e parsed
      have inside' : e.index < parts'.length := related.length_eq ▸ inside
      obtain ⟨place, text⟩ := related.get inside inside'
      simp only [List.get_eq_getElem] at place text
      simp only [Except.mapError, expressionError, List.getD_eq_getElem?_getD,
        List.getElem?_eq_getElem inside, List.getElem?_eq_getElem inside', Option.getD_some, text]
      exact .error (.expression rule _ e.cause place)

theorem record_copy (copied : ColumnMap.Copy dc bindings bindings') (syn : TableSyntax)
    (name : String) {r r' : RuleRecord} (copy : r.Copy dc r') :
    Alike (TableError.Moved dr dc) (· = ·) (record bindings syn name r)
      (record bindings' syn name r') := by
  refine (side_copy copied name _ (fun _ _ => index_of_parsed) copy.conditions).bind
    fun condition _ same => ?_
  subst same
  refine (side_copy copied name _ (fun _ _ => index_of_parsed) copy.consequences).bind
    fun consequence _ same => ?_
  subst same
  exact .ok rfl

theorem records_copy (copied : ColumnMap.Copy dc bindings bindings') (syn : TableSyntax)
    {entries entries' : RuleRecords} (copy : RuleRecords.Copy dc entries entries') :
    Alike (TableError.Moved dr dc) (· = ·) (records bindings syn entries)
      (records bindings' syn entries') := by
  induction copy with
  | nil => exact .ok rfl
  | cons entry others ih =>
      rw [records, records, entry.1]
      refine (record_copy copied syn _ entry.2).bind fun rule _ same => ?_
      subst same
      refine ih.bind fun rules _ same => ?_
      subst same
      exact .ok rfl

end Compile

/-- A copy of a table compiles to the same rules, or fails with the same error at the moved
    place. -/
theorem Grid.compile_copy {extent : Extent} {cells : List Cell} {grid' : Grid}
    (copy : (ofExtent extent cells).Copy dr dc grid') (syn : TableSyntax) :
    Alike (TableError.Moved dr dc) (· = ·) ((ofExtent extent cells).compile syn)
      (grid'.compile syn) := by
  refine (Layout.detect_copy copy syn).bind fun r r' related => ?_
  exact Compile.records_copy related.1.bindings syn
    (RuleRecords.ofCells_copy related.1.gapColumn related.2)

end DecisionTable
