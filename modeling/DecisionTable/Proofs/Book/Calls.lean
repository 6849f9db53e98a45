import DecisionTable.Proofs.Book.SheetMap

/-! # Calls of a book

After any run of calls a book holds the sheets that were loaded last and not removed since
(`registered`). Its snapshot has three views of them, which `Reflects` keeps in step: each call
does to the book what it does to the map (`Reflects.call`), and so does a run (`Reflects.run`).
-/

namespace DecisionTable

/-- A call of a book. -/
inductive Call where
  | load (id : String) (content : FileContent) (format : SheetFormat) (modified : Int)
  | remove (id : String)
  | sheet (id : String)
  | decide (fact : Fact)
  | sheetIds
  | ruleCount
  | etag

/-- What a call answers. -/
inductive Answer where
  | loaded (result : Except TableError Sheet)
  | removed (found : Bool)
  | sheet (found : Option Sheet)
  | decided (result : Except ChainError Decision)
  | sheetIds (ids : List String)
  | ruleCount (count : Nat)
  | etag (digest : String)

namespace RuleBook

def call (book : RuleBook) : Call → Answer × RuleBook
  | .load id content format modified =>
    match book.load id content format modified with
    | .ok (sheet, changed) => (.loaded (.ok sheet), changed)
    | .error e => (.loaded (.error e), book)
  | .remove id => ((.removed (book.remove id).1), (book.remove id).2)
  | .sheet id => (.sheet (book.sheet? id), book)
  | .decide fact => (.decided (book.decide fact), book)
  | .sheetIds => (.sheetIds book.sheetIds, book)
  | .ruleCount => (.ruleCount book.ruleCount, book)
  | .etag => (.etag book.etag, book)

/-- Calls in order, with their answers. -/
def run (book : RuleBook) : List Call → List Answer × RuleBook
  | [] => ([], book)
  | c :: calls => ((book.call c).1 :: ((book.call c).2.run calls).1, ((book.call c).2.run calls).2)

theorem load_eq (book : RuleBook) (id : String) (content : FileContent) (format : SheetFormat)
    (modified : Int) : book.load id content format modified =
      (Sheet.compile book.syn id content format modified).map fun sheet =>
        (sheet, book.update (SheetMap.insert sheet)) := by
  rw [load]
  cases Sheet.compile book.syn id content format modified <;> rfl

theorem length_run (book : RuleBook) (calls : List Call) :
    (book.run calls).1.length = calls.length := by
  induction calls generalizing book with
  | nil => rfl
  | cons c calls ih => rw [run, List.length_cons, ih, List.length_cons]

theorem run_append (book : RuleBook) (calls more : List Call) : book.run (calls ++ more) =
    ((book.run calls).1 ++ ((book.run calls).2.run more).1, ((book.run calls).2.run more).2) := by
  induction calls generalizing book with
  | nil => rfl
  | cons c calls ih => rw [List.cons_append, run, run, ih, List.cons_append]

end RuleBook

theorem Sheet.compile_id {syn : TableSyntax} {id : String} {content : FileContent}
    {format : SheetFormat} {modified : Int} {sheet : Sheet}
    (h : compile syn id content format modified = .ok sheet) : sheet.id = id := by
  obtain ⟨grid, -, h⟩ := Parser.bind_eq_ok.1 h
  obtain ⟨rules, -, h⟩ := Parser.bind_eq_ok.1 h
  cases h
  rfl

/-- A call that stores a sheet under an id. -/
def Call.Stores (syn : TableSyntax) (id : String) (c : Call) : Prop :=
  ∃ content format modified sheet, c = .load id content format modified ∧
    Sheet.compile syn id content format modified = .ok sheet

namespace RuleBook

variable {book : RuleBook} {id : String}

theorem contains_update_insert {sheet : Sheet} :
    (book.update (SheetMap.insert sheet)).contains id = true ↔
      sheet.id = id ∨ book.contains id = true := by
  have found : (book.update (SheetMap.insert sheet)).contains id =
      (if sheet.id = id then some sheet else book.shelf.sheets.get? id).isSome :=
    congrArg _ (SheetMap.get?_insert id sheet _)
  rw [found]
  split <;> simp [*, contains]

theorem contains_update_erase {other : String} :
    (book.update (SheetMap.erase other)).contains id = true ↔
      other ≠ id ∧ book.contains id = true := by
  have found : (book.update (SheetMap.erase other)).contains id =
      (if other = id then none else book.shelf.sheets.get? id).isSome :=
    congrArg _ (SheetMap.get?_erase other id _)
  rw [found]
  split <;> simp [*, contains]

/-- A removal leaves no sheet of its id. -/
theorem not_contains_remove (book : RuleBook) (id : String) :
    ¬ (book.remove id).2.contains id = true := by
  rw [remove]
  split
  · exact fun found => (contains_update_erase.1 found).1 rfl
  · rename_i absent
    exact absent

/-- A sheet is there after a call if it was there before, or if the call has stored it. -/
theorem contains_of_call {c : Call} (found : (book.call c).2.contains id = true) :
    book.contains id = true ∨ c.Stores book.syn id := by
  cases c with
  | load id' content format modified =>
      rw [call, load_eq] at found
      cases compiled : Sheet.compile book.syn id' content format modified with
      | error e =>
          rw [compiled] at found
          exact .inl found
      | ok sheet =>
          rw [compiled] at found
          rcases contains_update_insert.1 found with own | found
          · rw [Sheet.compile_id compiled] at own
            subst own
            exact .inr ⟨content, format, modified, sheet, rfl, compiled⟩
          · exact .inl found
  | remove id' =>
      rw [call, remove] at found
      split at found
      · exact .inl (contains_update_erase.1 found).2
      · exact .inl found
  | _ => exact .inl found

/-- A sheet stays until a removal of its id finds it. -/
theorem contains_call (found : book.contains id = true) (c : Call) :
    (book.call c).2.contains id = true ∨ c = .remove id ∧ (book.call c).1 = .removed true := by
  cases c with
  | load id' content format modified =>
      rw [call, load_eq]
      cases Sheet.compile book.syn id' content format modified with
      | error e => exact .inl found
      | ok sheet => exact .inl (contains_update_insert.2 (.inr found))
  | remove id' =>
      rw [call, remove]
      split
      · rename_i there
        by_cases own : id' = id
        · exact .inr ⟨by rw [own], rfl⟩
        · exact .inl (contains_update_erase.2 ⟨own, found⟩)
      · exact .inl found
  | _ => exact .inl found

theorem call_syn (book : RuleBook) (c : Call) : (book.call c).2.syn = book.syn := by
  cases c with
  | load id content format modified =>
      rw [call, load_eq]
      cases Sheet.compile book.syn id content format modified <;> rfl
  | remove id =>
      rw [call, remove]
      split <;> rfl
  | _ => rfl

theorem contains_of_run {calls : List Call} (found : (book.run calls).2.contains id = true) :
    book.contains id = true ∨ ∃ c ∈ calls, c.Stores book.syn id := by
  induction calls generalizing book with
  | nil => exact .inl found
  | cons c calls ih =>
      rcases ih found with found | ⟨c', mem, stores⟩
      · rcases contains_of_call found with found | stores
        · exact .inl found
        · exact .inr ⟨c, List.mem_cons_self, stores⟩
      · exact .inr ⟨c', List.mem_cons_of_mem _ mem, call_syn book c ▸ stores⟩

end RuleBook

/-- What a call makes of the sheet of an id, if it concerns it: a load that succeeds stores one,
    and a removal leaves none. -/
def Call.sets? (syn : TableSyntax) (id : String) : Call → Option (Option Sheet)
  | .load id' content format modified =>
    if id' = id then (Sheet.compile syn id' content format modified).toOption.map some else none
  | .remove id' => if id' = id then some none else none
  | _ => none

/-- The sheet that the last call that concerned an id has left. -/
def registered (syn : TableSyntax) (calls : List Call) (id : String) : Option Sheet :=
  (calls.reverse.findSome? (Call.sets? syn id)).join

/-- A sheet is registered by a load that succeeds, if no such load and no removal of its id
    follows. -/
theorem registered_eq_some_iff {syn : TableSyntax} {calls : List Call} {id : String}
    {sheet : Sheet} : registered syn calls id = some sheet ↔
      ∃ before content format modified after,
        calls = before ++ .load id content format modified :: after ∧
        Sheet.compile syn id content format modified = .ok sheet ∧
        ∀ c ∈ after, c.sets? syn id = none := by
  have stores : ∀ {c : Call}, c.sets? syn id = some (some sheet) ↔
      ∃ content format modified, c = .load id content format modified ∧
        Sheet.compile syn id content format modified = .ok sheet := by
    intro c
    cases c with
    | load id' content format modified =>
        by_cases eq : id' = id
        · subst eq
          cases compiled : Sheet.compile syn id' content format modified <;>
            simp [Call.sets?, compiled, Except.toOption, and_assoc]
        · simp [Call.sets?, eq]
    | remove id' => by_cases eq : id' = id <;> simp [Call.sets?, eq]
    | _ => simp [Call.sets?]
  rw [registered, Option.join_eq_some_iff, List.findSome?_eq_some_iff]
  constructor
  · rintro ⟨after, c, before, split, found, later⟩
    obtain ⟨content, format, modified, rfl, compiled⟩ := stores.1 found
    refine ⟨before.reverse, content, format, modified, after.reverse, ?_, compiled, ?_⟩
    · rw [← List.reverse_inj, split]
      simp
    · simpa using later
  · rintro ⟨before, content, format, modified, after, rfl, compiled, later⟩
    exact ⟨after.reverse, _, before.reverse, by simp,
      stores.2 ⟨content, format, modified, rfl, compiled⟩, by simpa using later⟩

theorem registered_append (syn : TableSyntax) (calls : List Call) (c : Call) (id : String) :
    registered syn (calls ++ [c]) id = (c.sets? syn id).getD (registered syn calls id) := by
  rw [registered, List.reverse_append, List.reverse_singleton, List.singleton_append,
    List.findSome?_cons]
  cases c.sets? syn id <;> rfl

/-- The book holds some sheets and nothing else: they are in order, and the rules and their digest
    are those of the sheets. -/
structure Reflects (syn : TableSyntax) (settings : EngineSettings)
    (stored : String → Option Sheet) (book : RuleBook) : Prop where
  syn_eq : book.syn = syn
  settings_eq : book.settings = settings
  shelf_eq : book.shelf = .ofSheets book.shelf.sheets
  sorted : book.shelf.sheets.Sorted
  sheet?_eq : ∀ id, book.sheet? id = stored id

namespace Reflects

variable {syn : TableSyntax} {settings : EngineSettings} {stored : String → Option Sheet}
  {book : RuleBook}

theorem empty (syn : TableSyntax) (settings : EngineSettings) :
    Reflects syn settings (registered syn []) (.empty syn settings) :=
  ⟨rfl, rfl, rfl, List.Pairwise.nil, fun _ => rfl⟩

theorem insert (reflects : Reflects syn settings stored book) (sheet : Sheet) :
    Reflects syn settings (fun id => if sheet.id = id then some sheet else stored id)
      (book.update (SheetMap.insert sheet)) := by
  refine ⟨reflects.syn_eq, reflects.settings_eq, rfl, reflects.sorted.insert sheet, fun id => ?_⟩
  rw [← reflects.sheet?_eq id]
  exact SheetMap.get?_insert id sheet book.shelf.sheets

theorem erase (reflects : Reflects syn settings stored book) (id : String) :
    Reflects syn settings (fun id' => if id = id' then none else stored id')
      (book.update (SheetMap.erase id)) := by
  refine ⟨reflects.syn_eq, reflects.settings_eq, rfl, reflects.sorted.erase id, fun id' => ?_⟩
  rw [← reflects.sheet?_eq id']
  exact SheetMap.get?_erase id id' book.shelf.sheets

theorem congr (reflects : Reflects syn settings stored book) {stored' : String → Option Sheet}
    (same : ∀ id, stored id = stored' id) : Reflects syn settings stored' book :=
  { reflects with sheet?_eq := fun id => (reflects.sheet?_eq id).trans (same id) }

/-- Each call does to the book what it does to the map. -/
theorem call (reflects : Reflects syn settings stored book) (c : Call) :
    Reflects syn settings (fun id => (c.sets? syn id).getD (stored id)) (book.call c).2 := by
  cases c with
  | load id content format modified =>
      rw [RuleBook.call, RuleBook.load_eq, reflects.syn_eq]
      cases compiled : Sheet.compile syn id content format modified with
      | error e =>
          refine reflects.congr fun id' => ?_
          simp [Call.sets?, compiled, Except.toOption]
      | ok sheet =>
          refine (reflects.insert sheet).congr fun id' => ?_
          rw [Sheet.compile_id compiled]
          by_cases eq : id = id'
          · subst eq
            simp [Call.sets?, compiled, Except.toOption]
          · simp [Call.sets?, eq]
  | remove id =>
      rw [RuleBook.call, RuleBook.remove]
      split
      · refine (reflects.erase id).congr fun id' => ?_
        by_cases eq : id = id' <;> simp [Call.sets?, eq]
      · rename_i absent
        refine reflects.congr fun id' => ?_
        by_cases eq : id = id'
        · subst eq
          rw [← reflects.sheet?_eq id]
          simpa [Call.sets?, RuleBook.contains, RuleBook.sheet?] using absent
        · simp [Call.sets?, eq]
  | _ => exact reflects

theorem run (calls : List Call) {before : List Call}
    (reflects : Reflects syn settings (registered syn before) book) :
    Reflects syn settings (registered syn (before ++ calls)) (book.run calls).2 := by
  induction calls generalizing before book with
  | nil => simpa [RuleBook.run] using reflects
  | cons c calls ih =>
      have := ih ((reflects.call c).congr fun id => (registered_append syn before c id).symm)
      rwa [List.append_assoc] at this

theorem mem_sheetIds (reflects : Reflects syn settings stored book) (id : String) :
    id ∈ book.sheetIds ↔ (stored id).isSome := by
  rw [← reflects.sheet?_eq id]
  exact SheetMap.mem_ids_iff id book.shelf.sheets

/-- The rules of a book are those of its sheets. -/
theorem rules_eq_flatMap (reflects : Reflects syn settings stored book) :
    book.shelf.rules = book.shelf.sheets.flatMap (·.rules) :=
  congrArg Shelf.rules reflects.shelf_eq

/-- The rules of a book, in the order of the ids. -/
theorem rules_eq (reflects : Reflects syn settings stored book) :
    book.shelf.rules = book.sheetIds.flatMap fun id => (stored id).elim [] (·.rules) := by
  have found : ∀ sheet ∈ book.shelf.sheets,
      (stored sheet.id).elim [] (·.rules) = sheet.rules := by
    intro sheet mem
    have self : book.sheet? sheet.id = some sheet := reflects.sorted.get?_self sheet mem
    rw [← reflects.sheet?_eq, self]
    rfl
  rw [reflects.rules_eq_flatMap, RuleBook.sheetIds, List.flatMap_map, List.flatMap_def,
    List.flatMap_def, List.map_congr_left found]

theorem etag_eq (reflects : Reflects syn settings stored book) :
    book.etag = book.shelf.rules.fingerprint := by
  rw [RuleBook.etag, reflects.shelf_eq]
  rfl

theorem remove_found (reflects : Reflects syn settings stored book) (id : String) :
    (book.remove id).1 = (stored id).isSome := by
  rw [← reflects.sheet?_eq id, RuleBook.remove]
  split
  · rename_i found
    exact found.symm
  · rename_i absent
    exact (Bool.eq_false_iff.2 absent).symm

/-- What a removal erases is what its id has. Where there is nothing, it erases nothing. -/
theorem update_erase (reflects : Reflects syn settings stored book) (id : String) :
    book.update (SheetMap.erase id) = (book.remove id).2 := by
  rw [RuleBook.remove]
  split
  · rfl
  · rename_i absent
    have none : SheetMap.get? id book.shelf.sheets = none := by
      simpa [RuleBook.contains] using absent
    have all : SheetMap.erase id book.shelf.sheets = book.shelf.sheets :=
      List.filter_eq_self.2 fun sheet mem => by simpa using List.find?_eq_none.1 none sheet mem
    rw [RuleBook.update, all, ← reflects.shelf_eq]

theorem decide_eq (reflects : Reflects syn settings stored book) (fact : Fact) :
    book.decide fact =
      (Chain.run settings (book.shelf.rules.map CompiledRule.toRule) fact).map fun e =>
        ⟨Members.erase "rulesETag" (Members.erase "rulesExecuted" e.fact), e.matchPath,
          book.shelf.rules.fingerprint⟩ := by
  rw [RuleBook.decide, reflects.settings_eq, ← reflects.etag_eq]
  rfl

end Reflects

end DecisionTable
