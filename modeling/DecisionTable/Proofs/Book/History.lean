import DecisionTable.Proofs.Book.Calls

/-! # Books and their histories

A book answers as the map of the sheets that were loaded last and not removed since
(`run_refines`). Two histories with the same map, the times of the loads aside, leave books
that no further calls can tell apart.
-/

namespace DecisionTable

/-- A sheet without the time of its load. -/
def Sheet.timeless (s : Sheet) : Sheet := { s with modified := 0 }

namespace SheetMap

theorem get?_map_timeless (id : String) (sheets : SheetMap) :
    get? id (sheets.map Sheet.timeless) = (get? id sheets).map Sheet.timeless := by
  rw [get?, get?, List.find?_map]
  rfl

theorem map_timeless_insert (sheet : Sheet) (sheets : SheetMap) :
    (insert sheet sheets).map Sheet.timeless =
      insert sheet.timeless (sheets.map Sheet.timeless) := by
  induction sheets with
  | nil => rfl
  | cons other rest ih =>
      have same : ∀ s : Sheet, s.timeless.id = s.id := fun _ => rfl
      rw [List.map_cons, insert, insert, same, same]
      split
      · rfl
      · split
        · rfl
        · rw [List.map_cons, ih]

theorem map_timeless_erase (id : String) (sheets : SheetMap) :
    (erase id sheets).map Sheet.timeless = erase id (sheets.map Sheet.timeless) := by
  rw [erase, erase, List.filter_map]
  rfl

theorem Sorted.map_timeless {sheets : SheetMap} (sorted : Sorted sheets) :
    Sorted (sheets.map Sheet.timeless) :=
  List.pairwise_map.2 sorted

end SheetMap

/-- An answer without the times of loads. -/
def Answer.timeless : Answer → Answer
  | .loaded result => .loaded (result.map Sheet.timeless)
  | .sheet found => .sheet (found.map Sheet.timeless)
  | other => other

namespace RuleBook

/-- A book without the times of the loads. -/
def timeless (book : RuleBook) : RuleBook :=
  { book with shelf := { book.shelf with sheets := book.shelf.sheets.map Sheet.timeless } }

theorem timeless_timeless (book : RuleBook) : book.timeless.timeless = book.timeless := by
  simp only [timeless, List.map_map]
  rfl

theorem timeless_ofSheets (syn : TableSyntax) (settings : EngineSettings) (sheets : SheetMap) :
    timeless ⟨syn, settings, .ofSheets sheets⟩ =
      ⟨syn, settings, .ofSheets (sheets.map Sheet.timeless)⟩ := by
  have rules : (sheets.map Sheet.timeless).flatMap (·.rules) = sheets.flatMap (·.rules) :=
    List.flatMap_map _ _ _
  simp only [timeless, Shelf.ofSheets, rules]

theorem timeless_update (book : RuleBook) {change change' : SheetMap → SheetMap}
    (same : ∀ sheets, (change sheets).map Sheet.timeless =
      change' (sheets.map Sheet.timeless)) :
    (book.update change).timeless = book.timeless.update change' := by
  rw [update, timeless_ofSheets, same]
  rfl

/-- A change that does not look at times gives the same book, times aside. -/
theorem update_timeless (book : RuleBook) {change change' : SheetMap → SheetMap}
    (same : ∀ sheets, (change sheets).map Sheet.timeless =
      change' (sheets.map Sheet.timeless)) :
    (book.timeless.update change).timeless = (book.update change).timeless := by
  rw [timeless_update _ same, timeless_update _ same, timeless_timeless]

theorem contains_timeless (book : RuleBook) (id : String) :
    book.timeless.contains id = book.contains id := by
  rw [contains, contains, timeless, SheetMap.get?_map_timeless, Option.isSome_map]

/-- A call answers the same, times aside, if the times are taken away before. -/
theorem call_timeless (book : RuleBook) (c : Call) :
    (book.timeless.call c).1.timeless = (book.call c).1.timeless ∧
      (book.timeless.call c).2.timeless = (book.call c).2.timeless := by
  cases c with
  | load id content format modified =>
      have syn_eq : book.timeless.syn = book.syn := rfl
      rw [call, call, load_eq, load_eq, syn_eq]
      cases Sheet.compile book.syn id content format modified with
      | error e => exact ⟨rfl, book.timeless_timeless⟩
      | ok sheet =>
          exact ⟨rfl, book.update_timeless (SheetMap.map_timeless_insert sheet)⟩
  | remove id =>
      rw [call, call, remove, remove, book.contains_timeless]
      split
      · exact ⟨rfl, book.update_timeless (SheetMap.map_timeless_erase id)⟩
      · exact ⟨rfl, book.timeless_timeless⟩
  | sheet id =>
      refine ⟨?_, book.timeless_timeless⟩
      have found : book.timeless.sheet? id = (book.sheet? id).map Sheet.timeless :=
        SheetMap.get?_map_timeless id book.shelf.sheets
      rw [call, call, found, Answer.timeless, Answer.timeless, Option.map_map]
      rfl
  | sheetIds =>
      refine ⟨?_, book.timeless_timeless⟩
      have ids : book.timeless.sheetIds = book.sheetIds := List.map_map
      rw [call, call, ids]
  | _ => exact ⟨rfl, book.timeless_timeless⟩

/-- Books that differ in times alone cannot be told apart by calls. -/
theorem run_timeless {book book' : RuleBook} (same : book.timeless = book'.timeless)
    (calls : List Call) : (book.run calls).1.map Answer.timeless =
      (book'.run calls).1.map Answer.timeless := by
  induction calls generalizing book book' with
  | nil => rfl
  | cons c calls ih =>
      have answers : (book.call c).1.timeless = (book'.call c).1.timeless := by
        rw [← (book.call_timeless c).1, same, (book'.call_timeless c).1]
      have books : (book.call c).2.timeless = (book'.call c).2.timeless := by
        rw [← (book.call_timeless c).2, same, (book'.call_timeless c).2]
      rw [run, run, List.map_cons, List.map_cons, answers, ih books]

end RuleBook

theorem Reflects.timeless_eq {syn : TableSyntax} {settings : EngineSettings}
    {stored stored' : String → Option Sheet} {book book' : RuleBook}
    (reflects : Reflects syn settings stored book)
    (reflects' : Reflects syn settings stored' book')
    (same : ∀ id, (stored id).map Sheet.timeless = (stored' id).map Sheet.timeless) :
    book.timeless = book'.timeless := by
  have sheets : book.shelf.sheets.map Sheet.timeless = book'.shelf.sheets.map Sheet.timeless := by
    refine reflects.sorted.map_timeless.ext reflects'.sorted.map_timeless fun id => ?_
    rw [SheetMap.get?_map_timeless, SheetMap.get?_map_timeless]
    have found := same id
    rw [← reflects.sheet?_eq, ← reflects'.sheet?_eq] at found
    exact found
  have held : ∀ {stored : String → Option Sheet} {book : RuleBook},
      Reflects syn settings stored book →
      book.timeless = ⟨syn, settings, .ofSheets (book.shelf.sheets.map Sheet.timeless)⟩ := by
    intro stored book reflects
    rw [← RuleBook.timeless_ofSheets, ← reflects.shelf_eq, ← reflects.syn_eq,
      ← reflects.settings_eq]
  rw [held reflects, held reflects', sheets]

/-- A book answers as a map of sheets by their ids does. -/
structure Refines (settings : EngineSettings) (stored : String → Option Sheet)
    (book : RuleBook) : Prop where
  ascending : book.sheetIds.Pairwise (· < ·)
  mem_sheetIds : ∀ id, id ∈ book.sheetIds ↔ (stored id).isSome
  sheet?_eq : ∀ id, book.sheet? id = stored id
  rules_eq : book.shelf.rules = book.sheetIds.flatMap fun id => (stored id).elim [] (·.rules)
  ruleCount_eq : book.ruleCount = book.shelf.rules.length
  etag_eq : book.etag = book.shelf.rules.fingerprint
  remove_found : ∀ id, (book.remove id).1 = (stored id).isSome
  decide_eq : ∀ fact, book.decide fact =
    (Chain.run settings (book.shelf.rules.map CompiledRule.toRule) fact).map fun e =>
      ⟨Members.erase "rulesETag" (Members.erase "rulesExecuted" e.fact), e.matchPath,
        book.shelf.rules.fingerprint⟩

theorem Reflects.refines {syn : TableSyntax} {settings : EngineSettings}
    {stored : String → Option Sheet} {book : RuleBook}
    (reflects : Reflects syn settings stored book) : Refines settings stored book where
  ascending := List.pairwise_map.2 reflects.sorted
  mem_sheetIds := reflects.mem_sheetIds
  sheet?_eq := reflects.sheet?_eq
  rules_eq := reflects.rules_eq
  ruleCount_eq := rfl
  etag_eq := reflects.etag_eq
  remove_found := reflects.remove_found
  decide_eq := reflects.decide_eq

namespace RuleBook

end RuleBook

end DecisionTable
