import DecisionTable.Console.Session
import DecisionTable.Proofs.Book.Loading

/-! # Decisions of all sheets

Without named sheets a decision is asked of all sheet files of the directory. They are loaded in
the order of their names, each under its name without the extension, so that of files that share
such a name the last one stays (`bookOf_listed`).
-/

namespace DecisionTable

/-- Where the files of a directory are in order by name, its sheets are listed in this order. -/
theorem FileTree.listSheets_eq {tree : FileTree} {directory : FilePath} (names : List String)
    (there : tree.isDirectory directory = true) (named : tree.fileNames directory = names)
    (ordered : names.Pairwise fun a b => decide (a ≤ b) = true) :
    tree.listSheets directory =
      (names.map fun name => directory.join ⟨name⟩).filter tree.isSheetFile := by
  rw [listSheets, if_pos there, named, List.mergeSort_of_pairwise ordered]

/-- Files as loads of what they compile to. -/
def Loads.ofPaths (rules : FilePath → RuleSet) (paths : List FilePath) : Loads :=
  paths.map fun path => (sheetId path, rules path)

namespace Loads

theorem latest?_ofPaths (rules : FilePath → RuleSet) (paths : List FilePath) (id : String) :
    latest? id (ofPaths rules paths) = (paths.reverse.find? (sheetId · == id)).map rules := by
  rw [latest?, ofPaths, ← List.map_reverse, List.find?_map, Option.map_map]
  rfl

theorem ruleCount_ofPaths (rules : FilePath → RuleSet) (paths : List FilePath) :
    ruleCount (ofPaths rules paths) = (paths.map fun path => (rules path).length).sum := by
  rw [ruleCount, ofPaths, List.map_map]
  rfl

theorem lossless_ofPaths {rules : FilePath → RuleSet} {paths : List FilePath} :
    Lossless (ofPaths rules paths) ↔
      paths.Pairwise fun p q => sheetId p = sheetId q → rules p = [] :=
  List.pairwise_map

end Loads

namespace Session

variable {s : Session}

/-- What a sheet file compiles to in a session; no rules if it does not compile. -/
def rulesOf (s : Session) (path : FilePath) : RuleSet :=
  (s.tree.compileSheet path s.configuration.table).toOption.getD []

theorem compileSheet_eq {path : FilePath}
    (compiles : (s.tree.compileSheet path s.configuration.table).isOk = true) :
    s.tree.compileSheet path s.configuration.table = .ok (s.rulesOf path) := by
  rw [rulesOf]
  cases compiled : s.tree.compileSheet path s.configuration.table with
  | error e =>
      rw [compiled] at compiles
      cases compiles
  | ok rules => rfl

/-- Without named sheets a decision is asked of the listed ones, if there are any. -/
theorem resolve_nil {paths : List FilePath}
    (listed : s.tree.listSheets s.rulesDirectory = paths) (found : paths ≠ []) :
    s.resolve [] = .ok paths := by
  rw [resolve, if_pos List.isEmpty_nil, listed]
  cases paths with
  | nil => exact absurd rfl found
  | cons => rfl

/-- A file that compiles is loaded with the rules that it compiles to. -/
theorem loadInto_eq {book : RuleBook} {path : FilePath} (syn : book.syn = s.configuration.table)
    (compiles : (s.tree.compileSheet path s.configuration.table).isOk = true) :
    ∃ sheet : Sheet, sheet.id = sheetId path ∧ sheet.rules = s.rulesOf path ∧
      s.loadInto book path = .ok (book.update (SheetMap.insert sheet)) := by
  have compiled := compileSheet_eq compiles
  rw [← syn] at compiled
  obtain ⟨sheet, id, rules, loaded⟩ := RuleBook.loadFile_of_compileSheet compiled
  refine ⟨sheet, id, rules, ?_⟩
  rw [loadInto, loaded]

/-- Files that all compile are all loaded, one after the other. -/
theorem foldlM_loadInto {settings : EngineSettings} {paths : List FilePath}
    (compile : ∀ p ∈ paths, (s.tree.compileSheet p s.configuration.table).isOk = true)
    {loads : Loads} {book : RuleBook} (keeps : Keeps s.configuration.table settings loads book) :
    ∃ book', paths.foldlM s.loadInto book = .ok book' ∧
      Keeps s.configuration.table settings (loads ++ .ofPaths s.rulesOf paths) book' := by
  induction paths generalizing loads book with
  | nil => exact ⟨book, rfl, by simpa [Loads.ofPaths] using keeps⟩
  | cons path paths ih =>
      obtain ⟨first, others⟩ := List.forall_mem_cons.1 compile
      obtain ⟨sheet, id, rules, loaded⟩ := loadInto_eq keeps.reflects.syn_eq first
      have next := keeps.insert sheet
      rw [id, rules] at next
      obtain ⟨book', rest, kept⟩ := ih others next
      refine ⟨book', ?_, ?_⟩
      · rw [List.foldlM_cons, loaded]
        exact rest
      · rwa [List.append_assoc] at kept

/-- The book for a decision keeps what the sheets compile to that the decision is asked of. -/
theorem bookOf_keeps {names : List String} {paths : List FilePath}
    (resolved : s.resolve names = .ok paths)
    (compile : ∀ p ∈ paths, (s.tree.compileSheet p s.configuration.table).isOk = true) :
    ∃ book, s.bookOf names = .ok book ∧
      Keeps s.configuration.table s.configuration.engine (.ofPaths s.rulesOf paths) book := by
  rw [bookOf, resolved]
  exact foldlM_loadInto compile (.empty _ _)

/-- A session that sees two files with a rule each: a table typed as text and one in a workbook. -/
def ofTwo (text workbook : String) : Session where
  tree :=
    { directories := [["rules"]]
      files :=
        [(["rules", text], ⟨.bytes (",amount,,ok\nBINDING,this.amount > $value,,this.ok = $value\n" ++
          "big,100,,TRUE\n").toUTF8.toList, 0⟩),
        (["rules", workbook], ⟨.workbook [[⟨⟨0, 1⟩, .text, "vip"⟩, ⟨⟨0, 3⟩, .text, "ok"⟩,
          ⟨⟨1, 0⟩, .text, "BINDING"⟩, ⟨⟨1, 1⟩, .text, "this.vip === $value"⟩,
          ⟨⟨1, 3⟩, .text, "this.ok = $value"⟩, ⟨⟨2, 0⟩, .text, "loyal"⟩, ⟨⟨2, 1⟩, .bool, "1"⟩,
          ⟨⟨2, 3⟩, .bool, "1"⟩]], 0⟩)]
      current := [] }
  input := []
  palette := ⟨false⟩
  project := none
  configuration := {}
  rulesDirectory := ⟨"rules"⟩
  json := false
  quiet := false

/-- Without named sheets the listed files are loaded, if there are any and all of them compile. For
    each id the rules of the last file of that id are registered. All rules of all files are
    registered just when no file that has rules shares its id with a later file. -/
theorem bookOf_listed {paths : List FilePath}
    (listed : s.tree.listSheets s.rulesDirectory = paths) (found : paths ≠ [])
    (compile : ∀ p ∈ paths, (s.tree.compileSheet p s.configuration.table).isOk = true) :
    ∃ book, s.bookOf [] = .ok book ∧
      (∀ id, (book.sheet? id).map (·.rules) =
        (paths.reverse.find? (sheetId · == id)).map s.rulesOf) ∧
      ((book.ruleCount = (paths.map fun p => (s.rulesOf p).length).sum ∧
          ∀ p ∈ paths, s.rulesOf p <:+: book.shelf.rules) ↔
        paths.Pairwise fun p q => sheetId p = sheetId q → s.rulesOf p = []) := by
  obtain ⟨book, built, keeps⟩ := bookOf_keeps (resolve_nil listed found) compile
  refine ⟨book, built, fun id => ?_, ?_⟩
  · rw [keeps.rules_eq, Loads.latest?_ofPaths]
  · rw [← Loads.ruleCount_ofPaths, ← Loads.lossless_ofPaths, ← keeps.complete_iff]
    simp only [Loads.ofPaths, List.forall_mem_map]

theorem bookOf_listed_apart :
    let s := ofTwo "loan.csv" "service.xlsx"
    let paths : List FilePath := [⟨"rules/loan.csv"⟩, ⟨"rules/service.xlsx"⟩]
    s.tree.listSheets s.rulesDirectory = paths ∧
      (∀ p ∈ paths, (s.tree.compileSheet p s.configuration.table).isOk = true) ∧
      paths.map (fun p => (s.rulesOf p).names) = [["big"], ["loyal"]] ∧
      ∃ book, s.bookOf [] = .ok book ∧
        (∀ id, (book.sheet? id).map (·.rules) =
          (paths.reverse.find? (sheetId · == id)).map s.rulesOf) ∧
        ((book.ruleCount = (paths.map fun p => (s.rulesOf p).length).sum ∧
            ∀ p ∈ paths, s.rulesOf p <:+: book.shelf.rules) ↔
          paths.Pairwise fun p q => sheetId p = sheetId q → s.rulesOf p = []) := by
  intro s paths
  have listed : s.tree.listSheets s.rulesDirectory = paths :=
    (FileTree.listSheets_eq ["loan.csv", "service.xlsx"] (by decide +kernel) (by decide +kernel)
      (by decide +kernel)).trans (by decide +kernel)
  have compile : ∀ p ∈ paths, (s.tree.compileSheet p s.configuration.table).isOk = true := by
    decide +kernel
  exact ⟨listed, compile, by decide +kernel, bookOf_listed listed (List.cons_ne_nil _ _) compile⟩

/-- A table and a workbook that share a name: of their two rules one is registered. -/
theorem bookOf_replaced :
    let s := ofTwo "loan.csv" "loan.xlsx"
    let paths : List FilePath := [⟨"rules/loan.csv"⟩, ⟨"rules/loan.xlsx"⟩]
    s.tree.listSheets s.rulesDirectory = paths ∧
      (∀ p ∈ paths, (s.tree.compileSheet p s.configuration.table).isOk = true) ∧
      paths.map (fun p => (s.rulesOf p).names) = [["big"], ["loyal"]] ∧
      (s.bookOf []).toOption.map (fun book => book.shelf.rules.names) = some ["loyal"] ∧
      ¬ ∃ book, s.bookOf [] = .ok book ∧
        book.ruleCount = (paths.map fun p => (s.rulesOf p).length).sum ∧
        ∀ p ∈ paths, s.rulesOf p <:+: book.shelf.rules := by
  intro s paths
  have listed : s.tree.listSheets s.rulesDirectory = paths :=
    (FileTree.listSheets_eq ["loan.csv", "loan.xlsx"] (by decide +kernel) (by decide +kernel)
      (by decide +kernel)).trans (by decide +kernel)
  have registered : (s.bookOf []).toOption.map (fun book => book.shelf.rules.names) =
      some ["loyal"] := by
    have resolved := resolve_nil listed (List.cons_ne_nil _ _)
    rw [bookOf, resolved]
    decide +kernel
  have names : paths.map (fun p => (s.rulesOf p).names) = [["big"], ["loyal"]] := by decide +kernel
  refine ⟨listed, by decide +kernel, names, registered, ?_⟩
  rintro ⟨book, built, count, -⟩
  have two : paths.map (fun p => (s.rulesOf p).length) = [1, 1] := by
    simpa [RuleSet.names, Function.comp_def] using congrArg (List.map List.length) names
  have one : book.shelf.rules.length = 1 := by
    simpa [built, Except.toOption, RuleSet.names] using
      congrArg (Option.map List.length) registered
  rw [RuleBook.ruleCount, one, two] at count
  cases count

end Session

end DecisionTable
