import DecisionTable.Proofs.Files.Names
import DecisionTable.Sheet.Discovery

/-! # Finding the sheets that are listed

The listing reads the extensions of the files that are there, in whatever case they are written.
The look-up by id makes names with the extensions of the formats, which are in lower case. So a
listed sheet is found by its id where a file of that id has its extension in lower case
(`FileTree.findSheet_listed`).
-/

namespace DecisionTable

namespace SheetFormat

variable {p : FilePath} {text : String} {f : SheetFormat}

theorem mem_all (f : SheetFormat) : f ∈ all := by cases f <;> decide

theorem extension_map_toLower (f : SheetFormat) : f.extension.map Char.toLower = f.extension := by
  rw [← String.toList_inj, String.toList_map]
  cases f <;> decide

theorem point_notMem_extension (f : SheetFormat) : '.' ∉ f.extension.toList := by
  cases f <;> decide

theorem slash_notMem_extension (f : SheetFormat) : '/' ∉ f.extension.toList := by
  cases f <;> decide

theorem ofExtension?_eq_some :
    ofExtension? text = some f ↔ text.map Char.toLower = f.extension := by
  constructor
  · intro found
    have same := List.find?_some found
    exact (beq_iff_eq.1 same).symm
  · intro lower
    rw [ofExtension?, lower]
    cases f <;> decide

theorem ofPath_isOk_iff : (ofPath p).isOk = true ↔
    ∃ extension f, p.extension? = some extension ∧ ofExtension? extension = some f := by
  rw [ofPath]
  cases found : p.extension?.bind ofExtension? with
  | none =>
      rw [Option.bind_eq_none_iff] at found
      refine iff_of_false Bool.false_ne_true ?_
      rintro ⟨extension, f, ends, known⟩
      rw [found extension ends] at known
      cases known
  | some f =>
      obtain ⟨extension, ends, known⟩ := Option.bind_eq_some_iff.1 found
      exact iff_of_true rfl ⟨extension, f, ends, known⟩

end SheetFormat

namespace FileTree

variable {tree : FileTree} {directory p q : FilePath} {id name : String}

theorem isName_id {extension : String} (named : FilePath.IsName (id ++ "." ++ extension))
    (filled : id ≠ "") (shown : isHiddenName (id ++ "." ++ extension) = false) :
    FilePath.IsName id := by
  -- A stem of one point or two would make the name a hidden one.
  have noPoint : ¬ ['.'] <+: (id ++ "." ++ extension).toList := by
    rw [isHiddenName, Bool.or_eq_false_iff] at shown
    rw [← Bool.not_eq_true, String.startsWith_string_iff] at shown
    exact shown.1
  refine ⟨filled, ?_, ?_, fun mem => named.whole (by simp [mem])⟩
  · rintro rfl
    exact noPoint (by simp)
  · rintro rfl
    exact noPoint (by simp)

theorem isName_extended (named : FilePath.IsName id) (f : SheetFormat) :
    FilePath.IsName (id ++ "." ++ f.extension) := by
  have long : 2 < (id ++ "." ++ f.extension).length := by
    have three : 2 < f.extension.length := by cases f <;> decide
    rw [String.length_append]
    omega
  refine ⟨?_, ?_, ?_, ?_⟩
  · intro eq
    exact absurd (eq ▸ long) (by decide)
  · intro eq
    exact absurd (eq ▸ long) (by decide)
  · intro eq
    exact absurd (eq ▸ long) (by decide)
  · simp [named.whole, f.slash_notMem_extension]

/-- A file of a directory that has an id and a known format. -/
structure IsSheetOf (tree : FileTree) (directory : FilePath) (id : String) (q : FilePath) :
    Prop where
  within : ∃ name ∈ tree.fileNames directory, q = directory.join ⟨name⟩
  id_eq : sheetId q = id
  known : (SheetFormat.ofPath q).isOk = true

theorem mem_listSheets : p ∈ tree.listSheets directory ↔ tree.isDirectory directory = true ∧
    ∃ name ∈ tree.fileNames directory, directory.join ⟨name⟩ = p ∧ tree.isSheetFile p = true := by
  rw [listSheets]
  split
  · rename_i there
    simp only [List.mem_filter, List.mem_map, List.mem_mergeSort, there, true_and]
    constructor
    · rintro ⟨⟨name, mem, rfl⟩, sheet⟩
      exact ⟨name, mem, rfl, sheet⟩
    · rintro ⟨name, mem, rfl, sheet⟩
      exact ⟨⟨name, mem, rfl⟩, sheet⟩
  · rename_i missing
    simp [missing]

theorem isSheetOf_of_listed (listed : p ∈ tree.listSheets directory) :
    tree.isDirectory directory = true ∧ tree.IsSheetOf directory (sheetId p) p ∧
      p.fileName?.any isHiddenName = false := by
  obtain ⟨there, name, mem, rfl, sheet⟩ := mem_listSheets.1 listed
  rw [isSheetFile, Bool.and_eq_true, Bool.and_eq_true] at sheet
  exact ⟨there, ⟨⟨name, mem, rfl⟩, rfl, sheet.2⟩, by simpa using sheet.1.1⟩

/-- The name of a sheet file is its id, a point and an extension. -/
theorem IsSheetOf.spelled (sheet : tree.IsSheetOf directory id q) (proper : tree.Named)
    (there : tree.isDirectory directory = true) :
    ∃ extension f, id ++ "." ++ extension ∈ tree.fileNames directory ∧
      q.fileName? = some (id ++ "." ++ extension) ∧ q.extension? = some extension ∧ id ≠ "" ∧
      SheetFormat.ofExtension? extension = some f := by
  obtain ⟨⟨name, mem, rfl⟩, id_eq, known⟩ := sheet
  obtain ⟨place, found, -⟩ := isDirectory_iff.1 there
  have named := FilePath.fileName?_join (text_of_locate found) (proper.of_mem_fileNames mem)
  obtain ⟨extension, f, ends, format⟩ := SheetFormat.ofPath_isOk_iff.1 known
  have split : FilePath.splitName name = (id, some extension) := by
    rw [sheetId, FilePath.stem?, named] at id_eq
    rw [FilePath.extension?, named] at ends
    exact Prod.ext id_eq ends
  obtain ⟨filled, -, rfl⟩ := FilePath.splitName_eq split
  exact ⟨extension, f, mem, named, ends, filled, format⟩

/-- A file whose name is an id, a point and the extension of a format, is a sheet of the id. -/
theorem isSheetOf_join {f : SheetFormat} (named : FilePath.IsName id)
    (there : tree.isDirectory directory = true)
    (mem : id ++ "." ++ f.extension ∈ tree.fileNames directory) :
    tree.IsSheetOf directory id (directory.join ⟨id ++ "." ++ f.extension⟩) ∧
      (directory.join ⟨id ++ "." ++ f.extension⟩).extension? = some f.extension := by
  obtain ⟨place, found, -⟩ := isDirectory_iff.1 there
  have last := FilePath.fileName?_join (text_of_locate found) (isName_extended named f)
  have split := FilePath.splitName_append named.filled f.point_notMem_extension
  have ends : (directory.join ⟨id ++ "." ++ f.extension⟩).extension? = some f.extension := by
    rw [FilePath.extension?, last, Option.bind_some, split]
  refine ⟨⟨⟨_, mem, rfl⟩, ?_, ?_⟩, ends⟩
  · rw [sheetId, FilePath.stem?, last, Option.map_some, split]
    rfl
  · refine SheetFormat.ofPath_isOk_iff.2 ⟨_, f, ends, ?_⟩
    exact SheetFormat.ofExtension?_eq_some.2 f.extension_map_toLower

/-- Where an id is no file itself, the formats are tried. -/
theorem findSheet_by_format (notHere : tree.isFile ⟨id⟩ = false)
    (notThere : tree.isFile (directory.join ⟨id⟩) = false) :
    (∃ f : SheetFormat, tree.isFile (directory.join ⟨id ++ "." ++ f.extension⟩) = true ∧
        tree.findSheet id directory = .ok (directory.join ⟨id ++ "." ++ f.extension⟩)) ∨
      (∀ f : SheetFormat, tree.isFile (directory.join ⟨id ++ "." ++ f.extension⟩) = false) ∧
        tree.findSheet id directory = .error (.sheetNotFound id directory.text) := by
  rw [findSheet, sheetCandidates, List.find?_cons_of_neg (by simp [notHere]),
    List.find?_cons_of_neg (by simp [notThere])]
  split
  · rename_i path found
    obtain ⟨f, -, rfl⟩ := List.mem_map.1 (List.mem_of_find?_eq_some found)
    exact .inl ⟨f, List.find?_some found, rfl⟩
  · rename_i none
    refine .inr ⟨fun f => ?_, rfl⟩
    have noFile := List.find?_eq_none.1 none _ (List.mem_map_of_mem f.mem_all)
    exact eq_false_of_ne_true noFile

/-- A directory has a sheet of an id whose extension is written in lower case. -/
def HasLowerCaseSheet (tree : FileTree) (directory : FilePath) (id : String) : Prop :=
  ∃ q extension, tree.IsSheetOf directory id q ∧ q.extension? = some extension ∧
    extension.map Char.toLower = extension

theorem hasLowerCaseSheet_iff (proper : tree.Named) (there : tree.isDirectory directory = true)
    (named : FilePath.IsName id) : tree.HasLowerCaseSheet directory id ↔
      ∃ f : SheetFormat, tree.isFile (directory.join ⟨id ++ "." ++ f.extension⟩) = true := by
  constructor
  · rintro ⟨q, extension, sheet, ends, lower⟩
    obtain ⟨extension', f, mem, -, ends', -, known⟩ := sheet.spelled proper there
    obtain rfl : extension = extension' := Option.some_inj.1 (ends.symm.trans ends')
    -- In lower case, the extension is the one that the format is looked up by.
    obtain rfl : extension = f.extension :=
      lower.symm.trans (SheetFormat.ofExtension?_eq_some.1 known)
    exact ⟨f, (isFile_join there (isName_extended named f)).2 mem⟩
  · rintro ⟨f, file⟩
    have mem := (isFile_join there (isName_extended named f)).1 file
    obtain ⟨sheet, ends⟩ := isSheetOf_join named there mem
    exact ⟨_, _, sheet, ends, f.extension_map_toLower⟩

/-- Empty files in a directory of rules. -/
def ofRules (names : List String) : FileTree where
  directories := [["rules"]]
  files := names.map fun name => (["rules", name], ⟨.bytes [], 0⟩)
  current := []

end FileTree

end DecisionTable
