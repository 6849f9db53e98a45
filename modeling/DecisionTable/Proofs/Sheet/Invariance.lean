import DecisionTable.Proofs.Sheet.Arrangement
import DecisionTable.Proofs.Sheet.Copies

/-! # What does not matter to a table

It does not matter to a table of which types its cells are, if they read the same: the same
sheet typed as text and kept in a workbook compiles alike (`compile_eq_of_rendered`). Nor does it
matter where the table stands on its sheet: moved in any direction it compiles to the same rules,
and errors and layouts move along (`compile_shift`).
-/

namespace DecisionTable

theorem TableError.Moved.eq {e e' : TableError} (moved : TableError.Moved 0 0 e e') : e = e' := by
  cases moved with
  | noGap place => rw [Offset.zero_iff.1 place]
  | missingMarker => rfl
  | missingBinding rule place => rw [Offset.zero_iff.1 place]
  | expression rule fragment cause place => rw [Offset.zero_iff.1 place]

namespace Grid

/-- The texts of a grid with their places. -/
def readings (grid : Grid) : List (Position × String) :=
  grid.cells.map fun c => (c.position, c.value.render)

theorem lookup_readings (grid : Grid) (p : Position) :
    grid.readings.lookup p = (grid.get? p).map CellValue.render := by
  rw [readings, get?]
  induction grid.cells with
  | nil => rfl
  | cons c cells ih =>
      rw [List.map_cons, List.lookup_cons, List.find?_cons, ih]
      by_cases here : c.position = p
      · simp [here]
      · simp [here, beq_false_of_ne (Ne.symm here)]

/-- A value is found at a place just when its cell is there. -/
theorem get?_eq_some_iff {extent : Extent} {cells : List Cell} {p : Position} {v : CellValue} :
    (ofExtent extent cells).get? p = some v ↔ ⟨p, v⟩ ∈ (ofExtent extent cells).cells := by
  rw [get?, Option.map_eq_some_iff, Cell.mem_iff_find? (ordered_ofExtent extent cells)]
  constructor
  · rintro ⟨c, found, rfl⟩
    obtain rfl : c.position = p := by simpa using List.find?_some found
    exact found
  · intro found
    exact ⟨_, found, rfl⟩

/-- In order of their places, texts are determined by what is looked up. -/
theorem readings_eq_of_rendered {extent extent' : Extent} {cells cells' : List Cell}
    (same : ∀ p, ((ofExtent extent cells).get? p).map CellValue.render =
      ((ofExtent extent' cells').get? p).map CellValue.render) :
    (ofExtent extent cells).readings = (ofExtent extent' cells').readings := by
  have ordered (extent : Extent) (cells : List Cell) :
      (ofExtent extent cells).readings.Pairwise fun a b => a.1.before b.1 = true :=
    List.pairwise_map.2 (ordered_ofExtent extent cells)
  have found (extent : Extent) (cells : List Cell) (p : Position) (text : String) :
      (p, text) ∈ (ofExtent extent cells).readings ↔
        ((ofExtent extent cells).get? p).map CellValue.render = some text := by
    simp only [readings, List.mem_map, Prod.mk.injEq, Option.map_eq_some_iff, get?_eq_some_iff]
    constructor
    · rintro ⟨c, mem, rfl, reads⟩
      exact ⟨c.value, mem, reads⟩
    · rintro ⟨v, mem, reads⟩
      exact ⟨_, mem, rfl, reads⟩
  exact Position.eq_of_mem_iff (ordered extent cells) (ordered extent' cells') fun a => by
    rw [found, found, same]

/-- Tables with the same corner and the same texts at the same places compile alike, to the same
    rules or with the same error, whether a text, a number or a truth value stands in a cell. -/
theorem compile_eq_of_rendered {extent extent' : Extent} {cells cells' : List Cell}
    (corner : extent.first = extent'.first)
    (same : ∀ p, ((ofExtent extent cells).get? p).map CellValue.render =
      ((ofExtent extent' cells').get? p).map CellValue.render) (syn : TableSyntax) :
    (ofExtent extent cells).compile syn = (ofExtent extent' cells').compile syn := by
  have copy : (ofExtent extent cells).Copy 0 0 (ofExtent extent' cells') := by
    refine ⟨Position.moved_zero_iff.2 corner, ?_⟩
    have texts := readings_eq_of_rendered same
    rw [← List.forall₂_eq_eq_eq, readings, readings, List.forall₂_map_left_iff,
      List.forall₂_map_right_iff] at texts
    exact texts.imp fun c c' same =>
      ⟨Position.moved_zero_iff.2 (congrArg Prod.fst same), (congrArg Prod.snd same).symm⟩
  exact ((compile_copy copy syn).imp (fun _ _ moved => moved.eq) fun _ _ same => same).eq

theorem compile_eq_of_rendered_typed :
    let plain := ofExtent ⟨⟨0, 0⟩, ⟨2, 3⟩⟩
      [⟨⟨0, 1⟩, .text "amount"⟩, ⟨⟨0, 3⟩, .text "ok"⟩, ⟨⟨1, 0⟩, .text "BINDING"⟩,
        ⟨⟨1, 1⟩, .text "this.amount > $value"⟩, ⟨⟨1, 3⟩, .text "this.ok = $value"⟩,
        ⟨⟨2, 0⟩, .text "7"⟩, ⟨⟨2, 1⟩, .text "100"⟩, ⟨⟨2, 3⟩, .text "true"⟩]
    let typed := ofExtent ⟨⟨0, 0⟩, ⟨9, 9⟩⟩
      [⟨⟨0, 1⟩, .text "amount"⟩, ⟨⟨0, 3⟩, .text "ok"⟩, ⟨⟨1, 0⟩, .text "BINDING"⟩,
        ⟨⟨1, 1⟩, .text "this.amount > $value"⟩, ⟨⟨1, 3⟩, .text "this.ok = $value"⟩,
        ⟨⟨2, 0⟩, .number (.ofNat 7)⟩, ⟨⟨2, 1⟩, .number (.ofNat 100)⟩, ⟨⟨2, 3⟩, .bool true⟩]
    plain.cells ≠ typed.cells ∧
      (∀ p, (plain.get? p).map CellValue.render = (typed.get? p).map CellValue.render) ∧
      (plain.compile {}).toOption.map RuleSet.names = some ["7"] ∧
      plain.compile {} = typed.compile {} := by
  intro plain typed
  have texts : plain.readings = typed.readings := by decide +kernel
  have same (p : Position) :
      (plain.get? p).map CellValue.render = (typed.get? p).map CellValue.render := by
    rw [← lookup_readings, ← lookup_readings, texts]
  exact ⟨by decide +kernel, same, by decide +kernel, compile_eq_of_rendered (by rfl) same {}⟩

end Grid

/-- Whether an offset can be added to the number of a row or column. -/
def Fits (d : Int) (n : UInt32) : Prop := 0 ≤ n.toNat + d ∧ n.toNat + d < 4294967296

instance (d : Int) (n : UInt32) : Decidable (Fits d n) :=
  inferInstanceAs (Decidable (_ ∧ _))

/-- The number of a row or column with an offset added. -/
def shift (d : Int) (n : UInt32) : UInt32 := .ofInt (n.toNat + d)

theorem offset_shift {d : Int} {n : UInt32} (fits : Fits d n) : Offset d n (shift d n) := by
  rw [Fits] at fits
  rw [Offset, shift, UInt32.ofInt, UInt32.toNat_ofNat']
  omega

namespace Position

/-- Whether a place can be moved. -/
def Fits (dr dc : Int) (p : Position) : Prop :=
  DecisionTable.Fits dr p.row ∧ DecisionTable.Fits dc p.column

instance (dr dc : Int) (p : Position) : Decidable (p.Fits dr dc) :=
  inferInstanceAs (Decidable (_ ∧ _))

/-- A place moved by a number of rows and a number of columns. -/
def shift (dr dc : Int) (p : Position) : Position :=
  ⟨DecisionTable.shift dr p.row, DecisionTable.shift dc p.column⟩

variable {dr dc : Int} {p p' q q' : Position}

theorem moved_shift (fits : p.Fits dr dc) : p.Moved dr dc (p.shift dr dc) :=
  ⟨offset_shift fits.1, offset_shift fits.2⟩

theorem Moved.before_iff (moved : p.Moved dr dc q) (moved' : p'.Moved dr dc q') :
    q.before q' = true ↔ p.before p' = true := by
  rw [Position.before_iff, Position.before_iff, moved.row.lt_iff moved'.row,
    moved.row.eq_iff moved'.row, moved.column.lt_iff moved'.column]

end Position

theorem Extent.contains_moved {dr dc : Int} {first first' last last' p q : Position}
    (low : first.Moved dr dc first') (high : last.Moved dr dc last') (moved : p.Moved dr dc q) :
    Extent.contains ⟨first', last'⟩ q = Extent.contains ⟨first, last⟩ p := by
  simp only [contains, ← UInt32.not_lt, moved.row.lt_iff low.row, high.row.lt_iff moved.row,
    moved.column.lt_iff low.column, high.column.lt_iff moved.column]

namespace Grid

/-- Whether a grid can be moved: its rectangle and its cells. -/
structure Fits (dr dc : Int) (grid : Grid) : Prop where
  first : grid.extent.first.Fits dr dc
  last : grid.extent.last.Fits dr dc
  cells : ∀ c ∈ grid.cells, c.position.Fits dr dc

/-- A grid moved by a number of rows and a number of columns. -/
def shift (dr dc : Int) (grid : Grid) : Grid :=
  ofExtent ⟨grid.extent.first.shift dr dc, grid.extent.last.shift dr dc⟩
    (grid.cells.map fun c => ⟨c.position.shift dr dc, c.value⟩)

/-- A moved grid has all cells of the grid, in the same order. -/
theorem copy_shift {dr dc : Int} {extent : Extent} {cells : List Cell}
    (fits : (ofExtent extent cells).Fits dr dc) :
    (ofExtent extent cells).Copy dr dc ((ofExtent extent cells).shift dr dc) := by
  have corner := Position.moved_shift fits.first
  have opposite := Position.moved_shift fits.last
  have moved (c : Cell) (mem : c ∈ (ofExtent extent cells).cells) :=
    Position.moved_shift (fits.cells c mem)
  let move (c : Cell) : Cell := ⟨c.position.shift dr dc, c.value⟩
  have kept : ((ofExtent extent cells).shift dr dc).cells =
      (ofExtent extent cells).cells.map move := by
    have inside : ∀ c ∈ (ofExtent extent cells).cells.map move,
        Extent.contains ⟨extent.first.shift dr dc, extent.last.shift dr dc⟩ c.position = true := by
      intro c mem
      obtain ⟨original, memOriginal, rfl⟩ := List.mem_map.1 mem
      exact (Extent.contains_moved corner opposite (moved original memOriginal)).trans
        (contains_of_mem memOriginal)
    have ordered : Cell.Ordered ((ofExtent extent cells).cells.map move) :=
      List.pairwise_map.2 ((ordered_ofExtent extent cells).imp_of_mem fun memA memB before =>
        ((moved _ memA).before_iff (moved _ memB)).2 before)
    rw [← ordered.foldr_place, ← List.filter_eq_self.2 inside]
    rfl
  refine ⟨corner, ?_⟩
  rw [kept, List.forall₂_map_right_iff, List.forall₂_same]
  exact fun c mem => ⟨moved c mem, rfl⟩

/-- A moved table compiles to the same rules, or fails with the same error, whose row or column
    moves along. So do the gap, the row of templates and the columns of the templates. -/
theorem compile_shift {dr dc : Int} {extent : Extent} {cells : List Cell}
    (fits : (ofExtent extent cells).Fits dr dc) (syn : TableSyntax) :
    Alike (TableError.Moved dr dc) (· = ·) ((ofExtent extent cells).compile syn)
      (((ofExtent extent cells).shift dr dc).compile syn) ∧
    Alike (TableError.Moved dr dc)
      (fun r r' => r.1.Copy dr dc r'.1 ∧ List.Forall₂ (Cell.Copy dr dc) r.2 r'.2)
      (Layout.detect (ofExtent extent cells) syn)
      (Layout.detect ((ofExtent extent cells).shift dr dc) syn) :=
  ⟨compile_copy (copy_shift fits) syn, Layout.detect_copy (copy_shift fits) syn⟩

theorem compile_shift_upward :
    let grid := ofExtent ⟨⟨2, 1⟩, ⟨4, 4⟩⟩
      [⟨⟨2, 2⟩, .text "amount"⟩, ⟨⟨2, 4⟩, .text "ok"⟩, ⟨⟨3, 1⟩, .text "BINDING"⟩,
        ⟨⟨3, 2⟩, .text "this.amount > $value"⟩, ⟨⟨4, 1⟩, .text "big"⟩,
        ⟨⟨4, 2⟩, .number (.ofNat 100)⟩, ⟨⟨4, 4⟩, .bool true⟩]
    grid.Fits (-2) 5 ∧ grid.compile {} = .error (.missingBinding "big" 4) ∧
      Alike (TableError.Moved (-2) 5) (· = ·) (grid.compile {}) ((grid.shift (-2) 5).compile {}) ∧
      Alike (TableError.Moved (-2) 5)
        (fun r r' => r.1.Copy (-2) 5 r'.1 ∧ List.Forall₂ (Cell.Copy (-2) 5) r.2 r'.2)
        (Layout.detect grid {}) (Layout.detect (grid.shift (-2) 5) {}) := by
  intro grid
  have fits : grid.Fits (-2) 5 :=
    ⟨by decide, by decide, by decide +kernel⟩
  have failed : grid.compile {} = .error (.missingBinding "big" 4) := by decide +kernel
  exact ⟨fits, failed, compile_shift fits {}⟩

end Grid

end DecisionTable
