import DecisionTable.Sheet.Grid

/-! # The order of cells

A grid has its cells in the order of their places and one cell at a place, whatever the cells
it was made from. So a row of a grid is one stretch of its cells, from left to right, and the
rows follow each other from top to bottom.
-/

namespace DecisionTable

/-- A test that fails from some place on keeps what stands before that place. -/
theorem takeWhile_eq_filter {α : Type} {test : α → Bool} {xs : List α}
    (h : xs.Pairwise fun a b => test b = true → test a = true) :
    xs.takeWhile test = xs.filter test ∧ xs.dropWhile test = xs.filter (!test ·) := by
  induction xs with
  | nil => exact ⟨rfl, rfl⟩
  | cons x xs ih =>
      obtain ⟨first, h⟩ := List.pairwise_cons.1 h
      cases passes : test x with
      | true => simp [passes, ih h]
      | false =>
          have fails (y : α) (mem : y ∈ xs) : test y = false :=
            Bool.eq_false_iff.2 fun held => by simp [first y mem held] at passes
          have gone : xs.filter test = [] :=
            List.filter_eq_nil_iff.2 fun y mem => by simp [fails y mem]
          have left : xs.filter (!test ·) = xs :=
            List.filter_eq_self.2 fun y mem => by simp [fails y mem]
          simp [passes, gone, left]

namespace Position

theorem before_iff {p q : Position} :
    p.before q = true ↔ p.row < q.row ∨ p.row = q.row ∧ p.column < q.column := by
  simp [before]

theorem not_before_self (p : Position) : p.before p = false := by
  simp [before]

theorem ne_of_before {p q : Position} (h : p.before q = true) : p ≠ q := by
  rintro rfl
  rw [not_before_self] at h
  cases h

theorem before_trans {p q r : Position} (h : p.before q = true) (h' : q.before r = true) :
    p.before r = true := by
  simp only [before_iff, UInt32.lt_iff_toNat_lt, ← UInt32.toNat_inj] at *
  omega

theorem before_of_not_before {p q : Position} (h : ¬ p.before q = true) (differ : p ≠ q) :
    q.before p = true := by
  obtain ⟨row, column⟩ := p
  obtain ⟨row', column'⟩ := q
  simp only [before_iff, UInt32.lt_iff_toNat_lt, ← UInt32.toNat_inj, ne_eq, mk.injEq] at *
  omega

theorem row_le_of_before {p q : Position} (h : p.before q = true) : p.row ≤ q.row := by
  simp only [before_iff, UInt32.lt_iff_toNat_lt, UInt32.le_iff_toNat_le, ← UInt32.toNat_inj] at *
  omega

theorem column_lt_of_before {p q : Position} (h : p.before q = true) (same : q.row = p.row) :
    p.column < q.column := by
  have := before_iff.1 h
  rw [same] at this
  exact (this.resolve_left (UInt32.lt_irrefl _)).2

end Position

namespace Cell

/-- Cells in the order of their places, with one at a place. -/
def Ordered (cells : List Cell) : Prop :=
  cells.Pairwise fun a b => a.position.before b.position = true

theorem Ordered.filter {cells : List Cell} (ordered : Ordered cells) (keep : Cell → Bool) :
    Ordered (cells.filter keep) :=
  List.Pairwise.filter keep ordered

/-- There is one cell at a place. -/
theorem Ordered.unique {cells : List Cell} (ordered : Ordered cells) {a b : Cell}
    (memA : a ∈ cells) (memB : b ∈ cells) (same : a.position = b.position) : a = b := by
  induction cells with
  | nil => cases memA
  | cons cell cells ih =>
      obtain ⟨first, ordered⟩ := List.pairwise_cons.1 ordered
      have apart (c : Cell) (mem : c ∈ cells) : cell.position ≠ c.position :=
        Position.ne_of_before (first c mem)
      rcases List.mem_cons.1 memA with rfl | behindA
      · rcases List.mem_cons.1 memB with rfl | behindB
        · rfl
        · exact absurd same (apart b behindB)
      · rcases List.mem_cons.1 memB with rfl | behindB
        · exact absurd same.symm (apart a behindA)
        · exact ih ordered behindA behindB

theorem mem_place {c cell : Cell} {cells : List Cell} (h : c ∈ cell.place cells) :
    c = cell ∨ c ∈ cells := by
  induction cells with
  | nil => exact .inl (List.mem_singleton.1 h)
  | cons other rest ih =>
      rw [place] at h
      split at h
      · exact List.mem_cons.1 h
      · split at h
        · exact .inr h
        · rcases List.mem_cons.1 h with rfl | h
          · exact .inr List.mem_cons_self
          · exact (ih h).imp_right (List.mem_cons_of_mem _)

theorem Ordered.place {cells : List Cell} (ordered : Ordered cells) (cell : Cell) :
    Ordered (cell.place cells) := by
  induction cells with
  | nil => exact List.pairwise_singleton _ _
  | cons other rest ih =>
      obtain ⟨first, rest_ordered⟩ := List.pairwise_cons.1 ordered
      rw [Cell.place]
      split
      case isTrue before =>
        refine List.pairwise_cons.2 ⟨fun c mem => ?_, ordered⟩
        rcases List.mem_cons.1 mem with rfl | mem
        · exact before
        · exact Position.before_trans before (first c mem)
      case isFalse notBefore =>
        split
        case isTrue => exact ordered
        case isFalse differ =>
          refine List.pairwise_cons.2 ⟨fun c mem => ?_, ih rest_ordered⟩
          rcases mem_place mem with rfl | mem
          · exact Position.before_of_not_before notBefore differ
          · exact first c mem

/-- Cells are in order once they are placed. -/
theorem ordered_foldr_place (cells : List Cell) : Ordered (cells.foldr Cell.place []) := by
  induction cells with
  | nil => exact List.Pairwise.nil
  | cons cell cells ih => exact ih.place cell

/-- Cells in order are placed as they stand. -/
theorem Ordered.foldr_place {cells : List Cell} (ordered : Ordered cells) :
    cells.foldr Cell.place [] = cells := by
  induction cells with
  | nil => rfl
  | cons cell cells ih =>
      obtain ⟨first, ordered⟩ := List.pairwise_cons.1 ordered
      rw [List.foldr_cons, ih ordered]
      cases cells with
      | nil => rfl
      | cons next cells => rw [Cell.place, if_pos (first next List.mem_cons_self)]

/-- The cells right of a cell in its row. -/
def rightOf (cell : Cell) (cells : List Cell) : List Cell :=
  cells.filter fun c =>
    c.position.row = cell.position.row ∧ cell.position.column < c.position.column

/-- Whether no cell stands left of a cell in its row. -/
def isLeftmost (cell : Cell) (cells : List Cell) : Bool :=
  cells.all fun c =>
    c.position.row = cell.position.row → cell.position.column ≤ c.position.column

/-- Cells below a row. -/
def below (row : UInt32) (cells : List Cell) : List Cell :=
  cells.filter (row < ·.position.row)

theorem mem_rightOf {c cell : Cell} {cells : List Cell} :
    c ∈ cell.rightOf cells ↔ c ∈ cells ∧ c.position.row = cell.position.row ∧
      cell.position.column < c.position.column := by
  simp [rightOf]

theorem isLeftmost_iff {cell : Cell} {cells : List Cell} :
    cell.isLeftmost cells = true ↔ ∀ c ∈ cells, c.position.row = cell.position.row →
      cell.position.column ≤ c.position.column := by
  simp only [isLeftmost, List.all_eq_true, decide_eq_true_eq]

/-- In one row the order is the order of columns. -/
theorem Ordered.columns {cells : List Cell} (ordered : Ordered cells) {row : UInt32}
    (same : ∀ c ∈ cells, c.position.row = row) :
    cells.Pairwise fun a b => a.position.column < b.position.column := by
  refine List.Pairwise.imp_of_mem (fun memA memB before => ?_) ordered
  rcases Position.before_iff.1 before with above | ⟨-, left⟩
  · rw [same _ memA, same _ memB] at above
    exact absurd above (UInt32.lt_irrefl row)
  · exact left

theorem Ordered.columns_rightOf {cells : List Cell} (ordered : Ordered cells) (cell : Cell) :
    (cell.rightOf cells).Pairwise fun a b => a.position.column < b.position.column :=
  (ordered.filter _).columns fun _ mem => (mem_rightOf.1 mem).2.1

/-- Behind a cell come the others of its row, and behind these the rows below. -/
theorem Ordered.behind {front rest : List Cell} {cell : Cell}
    (ordered : Ordered (front ++ cell :: rest)) :
    rest.takeWhile (·.position.row == cell.position.row) =
        cell.rightOf (front ++ cell :: rest) ∧
      rest.dropWhile (·.position.row == cell.position.row) =
        below cell.position.row (front ++ cell :: rest) := by
  obtain ⟨-, ordered, apart⟩ := List.pairwise_append.1 ordered
  obtain ⟨first, rest_ordered⟩ := List.pairwise_cons.1 ordered
  have ahead (c : Cell) (mem : c ∈ front) :=
    Position.before_iff.1 (apart c mem cell List.mem_cons_self)
  have after (c : Cell) (mem : c ∈ rest) := Position.before_iff.1 (first c mem)
  have right : cell.rightOf (front ++ cell :: rest) =
      rest.filter (·.position.row == cell.position.row) := by
    have none : cell.rightOf front = [] := List.filter_eq_nil_iff.2 fun c mem => by grind
    rw [rightOf, List.filter_append, ← rightOf, none, List.nil_append,
      List.filter_cons_of_neg (by simp)]
    exact List.filter_congr fun c mem => by grind
  have low : Cell.below cell.position.row (front ++ cell :: rest) =
      rest.filter (!·.position.row == cell.position.row) := by
    have none : Cell.below cell.position.row front = [] :=
      List.filter_eq_nil_iff.2 fun c mem => by grind
    rw [below, List.filter_append, ← below, none, List.nil_append,
      List.filter_cons_of_neg (by simp)]
    exact List.filter_congr fun c mem => by grind
  rw [right, low]
  refine takeWhile_eq_filter (List.Pairwise.imp_of_mem (fun memA _ before same => ?_) rest_ordered)
  have := Position.before_iff.1 before
  grind

end Cell

namespace Grid

/-- A grid is in order, from whatever cells it is made. -/
theorem ordered_ofExtent (extent : Extent) (cells : List Cell) :
    Cell.Ordered (ofExtent extent cells).cells :=
  Cell.ordered_foldr_place _

end Grid

end DecisionTable
