import DecisionTable.Proofs.Sheet.Order
import Mathlib.Data.List.Sort

/-! # How cells come into their order

A grid can be made from cells in any order, with any number of them at one place. It has the last
of those at each place in its rectangle, so it does not matter how cells of different places are
mixed (`ofExtent_eq_of_reordered`). The cells come out as if they were sorted without changing the
order at one place, and each then took over the value of a neighbour behind it at its place
(`foldr_place_eq_merged`). Since they are in order, a place can be looked up by halves
(`bisect?_eq`).
-/

namespace DecisionTable

/-- What is in the order of its places is determined by its members. -/
theorem Position.eq_of_mem_iff {α : Type} {place : α → Position} {xs ys : List α}
    (ordered : xs.Pairwise fun a b => (place a).before (place b) = true)
    (ordered' : ys.Pairwise fun a b => (place a).before (place b) = true)
    (same : ∀ a, a ∈ xs ↔ a ∈ ys) : xs = ys := by
  let Before (a b : α) : Prop := (place a).before (place b) = true
  have irreflexive : Std.Irrefl Before := ⟨fun a before => ne_of_before before rfl⟩
  have antisymmetric : Std.Antisymm Before := ⟨fun a b before after =>
    absurd rfl (ne_of_before (before_trans before after))⟩
  exact List.Pairwise.eq_of_mem_iff (r := Before) ordered ordered' same

namespace Cell

/-- The value of the last one of some cells at a place. -/
def last? (p : Position) (cells : List Cell) : Option CellValue :=
  (cells.filter (·.position = p)).getLast?.map (·.value)

/-- The same cells, those at one place in the same order. -/
def Reordered (cells cells' : List Cell) : Prop :=
  ∀ p, cells.filter (·.position = p) = cells'.filter (·.position = p)

variable {cells cells' : List Cell}

theorem mem_iff_find? (ordered : Ordered cells) {c : Cell} :
    c ∈ cells ↔ cells.find? (·.position = c.position) = some c := by
  constructor
  · intro mem
    cases found : cells.find? (·.position = c.position) with
    | none => simpa using List.find?_eq_none.1 found c mem
    | some other =>
        have here : other.position = c.position := by simpa using List.find?_some found
        rw [ordered.unique (List.mem_of_find?_eq_some found) mem here]
  · exact List.mem_of_find?_eq_some

/-- Cells in order are determined by what is found at each place. -/
theorem Ordered.ext (ordered : Ordered cells) (ordered' : Ordered cells')
    (same : ∀ p, cells.find? (·.position = p) = cells'.find? (·.position = p)) :
    cells = cells' := by
  apply Position.eq_of_mem_iff ordered ordered'
  intro c
  rw [mem_iff_find? ordered, mem_iff_find? ordered', same]

theorem find?_cons_place (c : Cell) (cells : List Cell) (p : Position) :
    (c :: cells).find? (·.position = p) =
      if c.position = p then some c else cells.find? (·.position = p) := by
  by_cases here : c.position = p <;> simp [here]

/-- Nothing is found at a place before the first one. -/
theorem find?_of_before_head {first : Cell} {rest : List Cell} (ordered : Ordered (first :: rest))
    {p : Position} (before : p.before first.position = true) :
    (first :: rest).find? (·.position = p) = none := by
  rw [List.find?_eq_none]
  intro c mem
  have behind : p.before c.position = true := by
    rcases List.mem_cons.1 mem with rfl | mem
    · exact before
    · exact Position.before_trans before ((List.pairwise_cons.1 ordered).1 c mem)
  simpa using (Position.ne_of_before behind).symm

/-- A cell that is put in is found, if there was none at its place. -/
theorem find?_place (ordered : Ordered cells) (cell : Cell) (p : Position) :
    (cell.place cells).find? (·.position = p) =
      (cells.find? (·.position = p)).or (if cell.position = p then some cell else none) := by
  induction cells with
  | nil => exact find?_cons_place cell [] p
  | cons other rest ih =>
      have rest_ordered := (List.pairwise_cons.1 ordered).2
      rw [place]
      split
      case isTrue before =>
        rw [find?_cons_place]
        split
        case isTrue here =>
          subst here
          rw [find?_of_before_head ordered before, Option.none_or]
        case isFalse => rw [Option.or_none]
      case isFalse notBefore =>
        split
        case isTrue same =>
          rw [same, find?_cons_place]
          split <;> simp
        case isFalse differ =>
          rw [find?_cons_place, find?_cons_place, ih rest_ordered]
          split <;> simp

/-- Of several cells at a place the last one is kept. -/
theorem find?_foldr_place (cells : List Cell) (p : Position) :
    (cells.foldr place []).find? (·.position = p) =
      (cells.filter (·.position = p)).getLast? := by
  induction cells with
  | nil => rfl
  | cons cell cells ih =>
      rw [List.foldr_cons, find?_place (ordered_foldr_place cells), ih]
      by_cases here : cell.position = p
      · simp [here, List.getLast?_cons]
      · simp [here]

/-! ## Sorting and merging -/

/-- Whether a cell may stand before another one: its place does not come behind. -/
def atMost (a b : Cell) : Bool := !b.position.before a.position

/-- The cells sorted by their places, those at one place in the order they had. -/
def sorted (cells : List Cell) : List Cell := cells.mergeSort atMost

/-- A kept cell and the cells behind it. It takes over the values of those at its place, one after
    the other, up to a cell at another place, which is the next one that is kept. -/
def absorb (kept : Cell) : List Cell → List Cell
  | [] => [kept]
  | later :: rest =>
    if later.position = kept.position then absorb { kept with value := later.value } rest
    else kept :: absorb later rest

/-- Sorted cells with one cell for each place. -/
def merged : List Cell → List Cell
  | [] => []
  | first :: rest => absorb first rest

theorem atMost_iff {a b : Cell} :
    atMost a b = true ↔ a.position = b.position ∨ a.position.before b.position = true := by
  rw [atMost, Bool.not_eq_true', Bool.eq_false_iff]
  constructor
  · intro notBehind
    by_cases same : a.position = b.position
    · exact .inl same
    · exact .inr (Position.before_of_not_before notBehind (Ne.symm same))
  · rintro (same | before) behind
    · exact Position.ne_of_before behind same.symm
    · exact Position.ne_of_before (Position.before_trans before behind) rfl

theorem atMost_trans (a b c : Cell) (first : atMost a b = true) (second : atMost b c = true) :
    atMost a c = true := by
  rw [atMost_iff] at *
  rcases first with same | before
  · rwa [same]
  · rcases second with same | before'
    · exact .inr (same ▸ before)
    · exact .inr (Position.before_trans before before')

theorem atMost_total (a b : Cell) : (atMost a b || atMost b a) = true := by
  rw [Bool.or_eq_true, atMost_iff]
  by_cases behind : b.position.before a.position = true
  · exact .inr (atMost_iff.2 (.inr behind))
  · by_cases same : a.position = b.position
    · exact .inl (.inl same)
    · exact .inl (.inr (Position.before_of_not_before behind (Ne.symm same)))

theorem pairwise_sorted (cells : List Cell) : (sorted cells).Pairwise (atMost · · = true) :=
  List.pairwise_mergeSort atMost_trans atMost_total cells

/-- Sorting keeps the order of the cells at one place. -/
theorem filter_sorted (cells : List Cell) (p : Position) :
    (sorted cells).filter (·.position = p) = cells.filter (·.position = p) := by
  have together : (cells.filter (·.position = p)).Pairwise (atMost · · = true) := by
    apply List.pairwise_of_forall_mem_list
    intro a memA b memB
    have hereA := of_decide_eq_true (List.mem_filter.1 memA).2
    have hereB := of_decide_eq_true (List.mem_filter.1 memB).2
    exact atMost_iff.2 (.inl (hereA.trans hereB.symm))
  have within : (cells.filter (·.position = p)).Sublist (sorted cells) :=
    List.sublist_mergeSort atMost_trans atMost_total together List.filter_sublist
  have kept := within.filter (·.position = p)
  rw [List.filter_filter] at kept
  simp only [Bool.and_self] at kept
  have permuted := (List.mergeSort_perm cells atMost).filter (·.position = p)
  exact (kept.eq_of_length permuted.length_eq.symm).symm

/-- The value that is taken over is all that a later cell at the same place has. -/
theorem absorb_cons (kept later : Cell) (rest : List Cell) :
    absorb kept (later :: rest) =
      if later.position = kept.position then absorb later rest else kept :: absorb later rest := by
  rw [absorb]
  split
  case isTrue same => rw [← same]
  case isFalse => rfl

theorem mem_absorb {c kept : Cell} {rest : List Cell} (mem : c ∈ absorb kept rest) :
    c ∈ kept :: rest := by
  induction rest generalizing kept with
  | nil => exact mem
  | cons later rest ih =>
      rw [absorb_cons] at mem
      split at mem
      · exact List.mem_cons_of_mem _ (ih mem)
      · rcases List.mem_cons.1 mem with rfl | mem
        · exact List.mem_cons_self
        · exact List.mem_cons_of_mem _ (ih mem)

/-- Behind a place that a sorted list leaves it does not come back. -/
theorem before_of_leaves {kept later : Cell} {rest : List Cell}
    (weak : (kept :: later :: rest).Pairwise (atMost · · = true))
    (leaves : later.position ≠ kept.position) :
    ∀ c ∈ later :: rest, kept.position.before c.position = true := by
  obtain ⟨first, weak⟩ := List.pairwise_cons.1 weak
  have next : kept.position.before later.position = true :=
    (atMost_iff.1 (first later List.mem_cons_self)).resolve_left leaves.symm
  intro c mem
  rcases List.mem_cons.1 mem with rfl | behind
  · exact next
  · rcases atMost_iff.1 ((List.pairwise_cons.1 weak).1 c behind) with same | before
    · rwa [← same]
    · exact Position.before_trans next before

theorem ordered_absorb {kept : Cell} {rest : List Cell}
    (weak : (kept :: rest).Pairwise (atMost · · = true)) : Ordered (absorb kept rest) := by
  induction rest generalizing kept with
  | nil => exact List.pairwise_singleton _ _
  | cons later rest ih =>
      have others := ih (List.pairwise_cons.1 weak).2
      rw [absorb_cons]
      split
      case isTrue => exact others
      case isFalse leaves =>
        refine List.pairwise_cons.2 ⟨?_, others⟩
        intro c mem
        exact before_of_leaves weak leaves c (mem_absorb mem)

/-- What is kept of a run of cells at one place is the last one. -/
theorem find?_absorb {kept : Cell} {rest : List Cell}
    (weak : (kept :: rest).Pairwise (atMost · · = true)) (p : Position) :
    (absorb kept rest).find? (·.position = p) =
      ((kept :: rest).filter (·.position = p)).getLast? := by
  induction rest generalizing kept with
  | nil => by_cases here : kept.position = p <;> simp [absorb, here]
  | cons later rest ih =>
      have others := ih (List.pairwise_cons.1 weak).2
      rw [absorb_cons]
      split
      case isTrue same =>
        rw [others]
        by_cases here : kept.position = p
        · simp [here, same.trans here]
        · have elsewhere : later.position ≠ p := same ▸ here
          simp [here, elsewhere]
      case isFalse leaves =>
        rw [find?_cons_place, others]
        by_cases here : kept.position = p
        · have gone : (later :: rest).filter (·.position = p) = [] := by
            apply List.filter_eq_nil_iff.2
            intro c mem
            have behind := Position.ne_of_before (before_of_leaves weak leaves c mem)
            simpa [← here] using behind.symm
          rw [if_pos here, List.filter_cons_of_pos (by simpa using here), gone]
          rfl
        · simp [here]

theorem ordered_merged {cells : List Cell} (weak : cells.Pairwise (atMost · · = true)) :
    Ordered (merged cells) := by
  cases cells with
  | nil => exact List.Pairwise.nil
  | cons first rest => exact ordered_absorb weak

theorem find?_merged {cells : List Cell} (weak : cells.Pairwise (atMost · · = true))
    (p : Position) :
    (merged cells).find? (·.position = p) = (cells.filter (·.position = p)).getLast? := by
  cases cells with
  | nil => rfl
  | cons first rest => exact find?_absorb weak p

/-- Cells that are placed one by one are those that are sorted and merged. -/
theorem foldr_place_eq_merged (cells : List Cell) :
    cells.foldr place [] = merged (sorted cells) := by
  have weak := pairwise_sorted cells
  apply (ordered_foldr_place cells).ext (ordered_merged weak)
  intro p
  rw [find?_foldr_place, find?_merged weak, filter_sorted]

/-! ## Looking up -/

/-- Looks a place up by halves: among the cells before the middle one if that stands behind the
    place, and among the others if it does not. -/
def bisect? (p : Position) (cells : List Cell) : Option CellValue :=
  if many : 1 < cells.length then
    have within : cells.length / 2 < cells.length := by omega
    if p.before cells[cells.length / 2].position then
      bisect? p (cells.take (cells.length / 2))
    else
      bisect? p (cells.drop (cells.length / 2))
  else
    (cells.head?.filter (·.position = p)).map (·.value)
termination_by cells.length
decreasing_by
  · rw [List.length_take]
    omega
  · rw [List.length_drop]
    omega

theorem find?_take_or_drop (cells : List Cell) (i : Nat) (test : Cell → Bool) :
    ((cells.take i).find? test).or ((cells.drop i).find? test) = cells.find? test := by
  rw [← List.find?_append, List.take_append_drop]

section Halves

variable {cells : List Cell} (ordered : Ordered cells) {i : Nat} (within : i < cells.length)
  {p : Position}
include ordered

/-- A place before that of a cell is found before the cell. -/
theorem find?_take (behind : p.before cells[i].position = true) :
    (cells.take i).find? (·.position = p) = cells.find? (·.position = p) := by
  have absent : (cells.drop i).find? (·.position = p) = none := by
    have high := ordered.sublist (List.drop_sublist i cells)
    rw [List.drop_eq_getElem_cons within] at high ⊢
    exact find?_of_before_head high behind
  rw [← find?_take_or_drop cells i, absent, Option.or_none]

/-- A place not before that of a cell is not found before the cell. -/
theorem find?_drop (notBehind : ¬ p.before cells[i].position = true) :
    (cells.drop i).find? (·.position = p) = cells.find? (·.position = p) := by
  have absent : (cells.take i).find? (·.position = p) = none := by
    rw [List.find?_eq_none]
    intro c mem
    have halves : Ordered (cells.take i ++ cells.drop i) := by rwa [List.take_append_drop]
    have middle : cells[i] ∈ cells.drop i := by
      rw [List.drop_eq_getElem_cons within]
      exact List.mem_cons_self
    have before := (List.pairwise_append.1 halves).2.2 c mem _ middle
    intro here
    exact notBehind (of_decide_eq_true here ▸ before)
  rw [← find?_take_or_drop cells i, absent, Option.none_or]

end Halves

/-- A search by halves finds what is found by going through all cells. -/
theorem bisect?_eq {cells : List Cell} (ordered : Ordered cells) (p : Position) :
    bisect? p cells = (cells.find? (·.position = p)).map (·.value) := by
  fun_induction bisect? p cells with
  | case1 cells many within behind ih =>
      rw [ih (ordered.sublist (List.take_sublist _ cells)), find?_take ordered within behind]
  | case2 cells many within notBehind ih =>
      rw [ih (ordered.sublist (List.drop_sublist _ cells)), find?_drop ordered within notBehind]
  | case3 cells few =>
      match cells with
      | [] => rfl
      | [c] => by_cases here : c.position = p <;> simp [here]
      | _ :: _ :: _ => simp at few

end Cell

namespace Grid

variable {cells cells' : List Cell}

theorem filter_contains (extent : Extent) (cells : List Cell) (p : Position) :
    (cells.filter (extent.contains ·.position)).filter (·.position = p) =
      if extent.contains p then cells.filter (·.position = p) else [] := by
  rw [List.filter_filter]
  split
  case isTrue inside =>
    apply List.filter_congr
    intro c _
    by_cases here : c.position = p
    · simp [here, inside]
    · simp [here]
  case isFalse outside =>
    apply List.filter_eq_nil_iff.2
    intro c _
    by_cases here : c.position = p
    · simp [here, outside]
    · simp [here]

/-- A place in the rectangle has the value of the last cell that is given for it. -/
theorem get?_ofExtent (extent : Extent) (cells : List Cell) (p : Position) :
    (ofExtent extent cells).get? p = if extent.contains p then Cell.last? p cells else none := by
  rw [get?, ofExtent, Cell.find?_foldr_place, filter_contains]
  split <;> rfl

/-- The order of cells at different places does not matter. -/
theorem ofExtent_eq_of_reordered (reordered : Cell.Reordered cells cells') (extent : Extent) :
    ofExtent extent cells = ofExtent extent cells' := by
  have same : (ofExtent extent cells).cells = (ofExtent extent cells').cells := by
    apply (ordered_ofExtent extent cells).ext (ordered_ofExtent extent cells')
    intro p
    rw [ofExtent, ofExtent, Cell.find?_foldr_place, Cell.find?_foldr_place, filter_contains,
      filter_contains, reordered]
  exact congrArg (Grid.mk extent) same

theorem le_largest {n : UInt32} {numbers : List UInt32} (mem : n ∈ numbers) :
    n ≤ largest numbers := by
  have grows (numbers : List UInt32) (start : UInt32) :
      ∀ n ∈ start :: numbers, n ≤ numbers.foldl (fun a b => if a < b then b else a) start := by
    induction numbers generalizing start with
    | nil => simp
    | cons next numbers ih =>
        intro n mem
        rw [List.foldl_cons]
        have low : start ≤ (if start < next then next else start) ∧
            next ≤ (if start < next then next else start) := by
          split
          case isTrue less => exact ⟨UInt32.le_of_lt less, UInt32.le_refl next⟩
          case isFalse notLess => exact ⟨UInt32.le_refl start, UInt32.not_lt.1 notLess⟩
        rcases List.mem_cons.1 mem with rfl | mem
        · exact UInt32.le_trans low.1 (ih _ _ List.mem_cons_self)
        · rcases List.mem_cons.1 mem with rfl | mem
          · exact UInt32.le_trans low.2 (ih _ _ List.mem_cons_self)
          · exact ih _ _ (List.mem_cons_of_mem _ mem)
  exact grows numbers 0 n (List.mem_cons_of_mem 0 mem)

/-- The rectangle from the first place of the sheet to the largest row and column has all cells. -/
theorem get?_ofCells (cells : List Cell) (p : Position) :
    (ofCells cells).get? p = Cell.last? p cells := by
  rw [ofCells, get?_ofExtent]
  split
  case isTrue => rfl
  case isFalse outside =>
    have absent : cells.filter (·.position = p) = [] := by
      apply List.filter_eq_nil_iff.2
      intro c mem here
      rw [← of_decide_eq_true here] at outside
      have row := le_largest (List.mem_map_of_mem (f := (·.position.row)) mem)
      have column := le_largest (List.mem_map_of_mem (f := (·.position.column)) mem)
      exact outside (by simp [Extent.contains, row, column])
    rw [Cell.last?, absent]
    rfl

theorem isSome_last? {c : Cell} (mem : c ∈ cells) : (Cell.last? c.position cells).isSome := by
  have here : c ∈ cells.filter (·.position = c.position) := by simpa using mem
  rw [Cell.last?, Option.isSome_map, List.getLast?_isSome]
  exact List.ne_nil_of_mem here

/-- Any rectangle and any cells make a grid in order, which has at each place of the rectangle the
    last cell that is given for it. It hangs on nothing else of the order in which the cells are
    given; and no place is lost if the rectangle is that of the cells. The cells can be had by
    sorting and merging, and looked up by halves. -/
theorem ofExtent_canonical (extent : Extent) (cells : List Cell) :
    Cell.Ordered (ofExtent extent cells).cells ∧
    (∀ p, (ofExtent extent cells).get? p =
      if extent.contains p then Cell.last? p cells else none) ∧
    (∀ cells', Cell.Reordered cells cells' → ofExtent extent cells = ofExtent extent cells') ∧
    (∀ c ∈ cells, ((ofCells cells).get? c.position).isSome) ∧
    (ofExtent extent cells).cells =
      Cell.merged (Cell.sorted (cells.filter (extent.contains ·.position))) ∧
    ∀ p, (ofExtent extent cells).get? p = Cell.bisect? p (ofExtent extent cells).cells := by
  have ordered := ordered_ofExtent extent cells
  refine ⟨ordered, get?_ofExtent extent cells, ?reordered, ?kept, ?merged, ?halves⟩
  case reordered =>
    intro cells' reordered
    exact ofExtent_eq_of_reordered reordered extent
  case kept =>
    intro c mem
    rw [get?_ofCells]
    exact isSome_last? mem
  case merged => exact Cell.foldr_place_eq_merged _
  case halves =>
    intro p
    exact (Cell.bisect?_eq ordered p).symm

theorem ofExtent_canonical_copies :
    let extent : Extent := ⟨⟨0, 0⟩, ⟨1, 1⟩⟩
    let copy (text : String) : Cell := ⟨⟨0, 0⟩, .text text⟩
    let other : Cell := ⟨⟨1, 0⟩, .text "other"⟩
    let outside : Cell := ⟨⟨2, 0⟩, .bool true⟩
    let cells := [copy "1", outside, copy "2", other, copy "3"]
    let mixed := [other, copy "1", copy "2", copy "3", outside]
    Cell.Reordered cells mixed ∧ ofExtent extent cells = ofExtent extent mixed ∧
      outside ∈ cells ∧ ((ofCells cells).get? outside.position).isSome ∧
      (ofExtent extent cells).cells = [copy "3", other] := by
  intro extent copy other outside cells mixed
  have reordered : Cell.Reordered cells mixed := by
    intro p
    by_cases first : (⟨0, 0⟩ : Position) = p
    · subst first
      simp [cells, mixed, copy, other, outside]
    · by_cases second : (⟨1, 0⟩ : Position) = p
      · subst second
        simp [cells, mixed, copy, other, outside]
      · simp [cells, mixed, copy, other, outside, first, second, List.filter_cons]
  have canonical := ofExtent_canonical extent cells
  have placed : (ofExtent extent cells).cells = [copy "3", other] := by decide +kernel
  exact ⟨reordered, canonical.2.2.1 mixed reordered, by simp [cells],
    canonical.2.2.2.1 outside (by simp [cells]), placed⟩

end Grid

end DecisionTable
