import DecisionTable.Proofs.Book.Calls
import Mathlib.Algebra.Ring.Nat
import Mathlib.Data.List.Induction

/-! # Loads and the rules that they leave

A book keeps for each id the rules that were loaded last under it (`Keeps`). It keeps the rules of
all loads just when no load takes the place of one that had rules (`Keeps.complete_iff`).
-/

namespace DecisionTable

/-- Loads in their order: the ids, and the rules that were stored under them. -/
abbrev Loads := List (String × RuleSet)

namespace Loads

/-- The rules that were stored last under an id. -/
def latest? (id : String) (loads : Loads) : Option RuleSet :=
  (loads.reverse.find? (·.1 == id)).map (·.2)

/-- How many rules the loads have together. -/
def ruleCount (loads : Loads) : Nat := (loads.map (·.2.length)).sum

/-- No load takes the place of one that had rules. -/
def Lossless (loads : Loads) : Prop := loads.Pairwise fun a b => a.1 = b.1 → a.2 = []

variable {loads : Loads}

theorem latest?_append (id : String) (loads : Loads) (last : String × RuleSet) :
    latest? id (loads ++ [last]) = if last.1 = id then some last.2 else latest? id loads := by
  rw [latest?, List.reverse_append, List.reverse_singleton, List.singleton_append]
  by_cases own : last.1 = id <;> simp [own, latest?]

theorem ruleCount_append (loads : Loads) (last : String × RuleSet) :
    ruleCount (loads ++ [last]) = ruleCount loads + last.2.length := by
  simp [ruleCount]

theorem lossless_append {last : String × RuleSet} : Lossless (loads ++ [last]) ↔
    loads.Lossless ∧ ∀ load ∈ loads, load.1 = last.1 → load.2 = [] := by
  simp [Lossless, List.pairwise_append]

theorem mem_of_latest? {id : String} {rules : RuleSet} (found : latest? id loads = some rules) :
    (id, rules) ∈ loads := by
  obtain ⟨load, last, rfl⟩ := Option.map_eq_some_iff.1 found
  have own : load.1 = id := by simpa using List.find?_some last
  exact own ▸ List.mem_reverse.1 (List.mem_of_find?_eq_some last)

/-- Where no rules are replaced, the last load of an id has all rules of that id. -/
theorem Lossless.latest?_eq (lossless : loads.Lossless) {load : String × RuleSet}
    (mem : load ∈ loads) : load.2 = [] ∨ latest? load.1 loads = some load.2 := by
  -- From the last load backwards, since a load is replaced by later ones.
  induction loads using List.reverseRecOn with
  | nil => cases mem
  | append_singleton loads last ih =>
      obtain ⟨before, replaced⟩ := lossless_append.1 lossless
      rw [latest?_append]
      rcases List.mem_append.1 mem with mem | mem
      · split
        · rename_i own
          exact .inl (replaced load mem own.symm)
        · exact ih before mem
      · rw [List.mem_singleton.1 mem]
        exact .inr (if_pos rfl)

/-- Whether another load replaces rules is seen from the last load of its id alone. -/
theorem Lossless.append_iff (lossless : loads.Lossless) {last : String × RuleSet} :
    Lossless (loads ++ [last]) ↔ (latest? last.1 loads).elim 0 List.length = 0 := by
  rw [lossless_append, and_iff_right lossless]
  constructor
  · intro replaced
    cases found : latest? last.1 loads with
    | none => rfl
    | some rules => exact List.length_eq_zero_iff.2 (replaced _ (mem_of_latest? found) rfl)
  · intro none load mem own
    rcases lossless.latest?_eq mem with empty | same
    · exact empty
    · rw [own] at same
      rw [same] at none
      exact List.length_eq_zero_iff.1 none

end Loads

/-- A book has for each id the rules that were loaded last under it. It has no more rules than were
    loaded, and as many just when none were replaced. -/
structure Keeps (syn : TableSyntax) (settings : EngineSettings) (loads : Loads)
    (book : RuleBook) : Prop where
  reflects : Reflects syn settings book.sheet? book
  rules_eq : ∀ id, (book.sheet? id).map (·.rules) = loads.latest? id
  count_le : book.ruleCount ≤ loads.ruleCount
  count_eq_iff : book.ruleCount = loads.ruleCount ↔ loads.Lossless

namespace Keeps

variable {syn : TableSyntax} {settings : EngineSettings} {loads : Loads} {book : RuleBook}

theorem empty (syn : TableSyntax) (settings : EngineSettings) :
    Keeps syn settings [] (.empty syn settings) :=
  ⟨⟨rfl, rfl, rfl, .nil, fun _ => rfl⟩, fun _ => rfl, Nat.le_refl 0, iff_of_true rfl .nil⟩

/-- Storing a sheet is a load of its rules. -/
theorem insert (keeps : Keeps syn settings loads book) (sheet : Sheet) :
    Keeps syn settings (loads ++ [(sheet.id, sheet.rules)])
      (book.update (SheetMap.insert sheet)) := by
  have reflects := keeps.reflects.insert sheet
  have count : (book.update (SheetMap.insert sheet)).ruleCount +
      (loads.latest? sheet.id).elim 0 List.length = book.ruleCount + sheet.rules.length := by
    rw [← keeps.rules_eq, RuleBook.ruleCount, RuleBook.ruleCount,
      keeps.reflects.rules_eq_flatMap]
    exact keeps.reflects.sorted.length_insert sheet
  have below := keeps.count_le
  refine ⟨reflects.congr fun id => (reflects.sheet?_eq id).symm, fun id => ?_, ?_, ?_⟩
  · rw [reflects.sheet?_eq, Loads.latest?_append, ← keeps.rules_eq]
    split <;> rfl
  · rw [Loads.ruleCount_append]
    dsimp only
    omega
  · rw [Loads.ruleCount_append]
    dsimp only
    constructor
    · intro same
      -- With no more rules before than were loaded, none can have been replaced, then or now.
      exact (keeps.count_eq_iff.1 (by omega)).append_iff.2 (by dsimp only; omega)
    · intro lossless
      have before := (Loads.lossless_append.1 lossless).1
      have none := before.append_iff.1 lossless
      have same := keeps.count_eq_iff.2 before
      dsimp only at none
      omega

/-- The rules of all loads are in a book, each load's together, just when no load takes the place of
    one that had rules. -/
theorem complete_iff (keeps : Keeps syn settings loads book) :
    (book.ruleCount = loads.ruleCount ∧ ∀ load ∈ loads, load.2 <:+: book.shelf.rules) ↔
      loads.Lossless := by
  rw [keeps.count_eq_iff]
  refine and_iff_left_of_imp fun lossless load mem => ?_
  rcases lossless.latest?_eq mem with empty | last
  · rw [empty]
    exact List.nil_infix
  · rw [← keeps.rules_eq, Option.map_eq_some_iff] at last
    obtain ⟨sheet, found, same⟩ := last
    rw [keeps.reflects.rules_eq_flatMap, List.flatMap_def, ← same]
    exact List.infix_of_mem_flatten (List.mem_map_of_mem (SheetMap.mem_of_get?_eq_some found).1)

end Keeps

/-- A file that compiles on its own is loaded with the rules that it compiles to. -/
theorem RuleBook.loadFile_of_compileSheet {book : RuleBook} {tree : FileTree} {path : FilePath}
    {rules : RuleSet} (compiled : tree.compileSheet path book.syn = .ok rules) :
    ∃ sheet : Sheet, sheet.id = sheetId path ∧ sheet.rules = rules ∧
      book.loadFile tree path = .ok (sheet, book.update (SheetMap.insert sheet)) := by
  obtain ⟨grid, loaded, compiled⟩ := Parser.bind_eq_ok.1 compiled
  obtain ⟨format, told, loaded⟩ := Parser.bind_eq_ok.1 loaded
  obtain ⟨file, read, decoded⟩ := Parser.bind_eq_ok.1 loaded
  refine ⟨⟨sheetId path, file.content, format, file.modified, rules⟩, rfl, rfl, ?_⟩
  simp only [loadFile, told, read, load_eq, Sheet.compile, decoded, compiled, bind, Except.bind,
    pure, Except.pure, Except.map]

end DecisionTable
