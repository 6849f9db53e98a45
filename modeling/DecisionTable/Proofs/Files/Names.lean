import DecisionTable.Files.Tree

/-! # File names in paths

A file name behind the path of a directory is its last piece, and leads to the file of that name in
the directory (`FileTree.isFile_join`). A name that has an extension is its stem, a point and the
extension (`FilePath.splitName_append`, `FilePath.splitName_eq`).
-/

namespace DecisionTable

namespace FilePath

/-- Texts that can name a file in a directory. -/
structure IsName (text : String) : Prop where
  filled : text ≠ ""
  notHere : text ≠ "."
  notUp : text ≠ ".."
  whole : '/' ∉ text.toList

theorem isName_iff {text : String} :
    IsName text ↔ text ≠ "" ∧ text ≠ "." ∧ text ≠ ".." ∧ '/' ∉ text.toList :=
  ⟨fun ⟨filled, notHere, notUp, whole⟩ => ⟨filled, notHere, notUp, whole⟩,
    fun ⟨filled, notHere, notUp, whole⟩ => ⟨filled, notHere, notUp, whole⟩⟩

instance (text : String) : Decidable (IsName text) := decidable_of_iff _ isName_iff.symm

theorem IsName.not_idle {name : String} (named : IsName name) : isIdle name = false := by
  simp [isIdle, named.filled, named.notHere]

theorem IsName.relative {name : String} (named : IsName name) :
    (⟨name⟩ : FilePath).isAbsolute = false := by
  rw [isAbsolute, beq_eq_false_iff_ne]
  exact fun first => named.whole (List.mem_of_head? first)

/-! ## Pieces -/

theorem splitSlashes_ne_nil (text : List Char) : splitSlashes text ≠ [] := by
  fun_induction splitSlashes text <;> simp

theorem splitSlashes_slash (rest : List Char) :
    splitSlashes ('/' :: rest) = [] :: splitSlashes rest := by
  cases found : splitSlashes rest with
  | nil => exact absurd found (splitSlashes_ne_nil rest)
  | cons piece pieces => simp only [splitSlashes, found, if_true]

theorem splitSlashes_cons {c : Char} {rest piece : List Char} {pieces : List (List Char)}
    (other : c ≠ '/') (found : splitSlashes rest = piece :: pieces) :
    splitSlashes (c :: rest) = (c :: piece) :: pieces := by
  simp only [splitSlashes, found, if_neg other]

theorem splitSlashes_whole {text : List Char} (whole : '/' ∉ text) :
    splitSlashes text = [text] := by
  induction text with
  | nil => rfl
  | cons c rest ih =>
      obtain ⟨other, others⟩ := not_or.1 (mt List.mem_cons.2 whole)
      exact splitSlashes_cons (Ne.symm other) (ih others)

theorem splitSlashes_append (front behind : List Char) :
    splitSlashes (front ++ '/' :: behind) = splitSlashes front ++ splitSlashes behind := by
  induction front with
  | nil => exact splitSlashes_slash behind
  | cons c front ih =>
      by_cases slash : c = '/'
      · subst slash
        rw [List.cons_append, splitSlashes_slash, splitSlashes_slash, ih, List.cons_append]
      · cases found : splitSlashes front with
        | nil => exact absurd found (splitSlashes_ne_nil front)
        | cons piece pieces =>
            rw [found] at ih
            rw [List.cons_append, splitSlashes_cons slash ih, splitSlashes_cons slash found]
            rfl

theorem pieces_ne_nil (p : FilePath) : p.pieces ≠ [] :=
  mt List.map_eq_nil_iff.1 (splitSlashes_ne_nil _)

theorem pieces_append (front behind : String) :
    (⟨front ++ "/" ++ behind⟩ : FilePath).pieces =
      (⟨front⟩ : FilePath).pieces ++ (⟨behind⟩ : FilePath).pieces := by
  have text : (front ++ "/" ++ behind).toList = front.toList ++ '/' :: behind.toList := by simp
  rw [pieces, text, splitSlashes_append, List.map_append]
  rfl

theorem pieces_name {name : String} (named : IsName name) :
    (⟨name⟩ : FilePath).pieces = [name] := by
  rw [pieces, splitSlashes_whole named.whole, List.map_singleton, String.ofList_toList]

variable {directory : FilePath} {name : String}

theorem join_name (there : directory.text ≠ "") (named : IsName name) :
    ∃ front, (directory.join ⟨name⟩).text = front ++ "/" ++ name ∧
      (directory.text = front ∨ directory.text = front ++ "/") := by
  rw [join, named.relative, Bool.false_or, if_neg (by simpa using there)]
  split
  · rename_i ends
    rw [String.endsWith, String.Slice.endsWith_string_iff, String.copy_toSlice] at ends
    obtain ⟨start, text⟩ := ends
    have slash : directory.text = String.ofList start ++ "/" := by
      simp [← String.toList_inj, ← text]
    exact ⟨String.ofList start, congrArg (· ++ name) slash, .inr slash⟩
  · exact ⟨directory.text, rfl, .inl rfl⟩

theorem pieces_of_text {p : FilePath} {front : String} (text : p.text = front ++ "/" ++ name)
    (named : IsName name) : p.pieces = (⟨front⟩ : FilePath).pieces ++ [name] := by
  rw [← pieces_name named, ← pieces_append, ← text]

theorem isAbsolute_join (there : directory.text ≠ "") (named : IsName name) :
    (directory.join ⟨name⟩).isAbsolute = directory.isAbsolute := by
  obtain ⟨front, text, same⟩ := join_name there named
  rw [isAbsolute, isAbsolute, text]
  have start : (front ++ "/" ++ name).toList.head? = (front ++ "/").toList.head? := by
    cases found : front.toList <;> simp [found]
  rcases same with same | same
  · rw [start, same]
    cases found : front.toList with
    | nil => exact absurd (same.trans (String.toList_eq_nil_iff.1 found)) there
    | cons c rest => simp [found]
  · rw [start, same]

theorem fileName?_join (there : directory.text ≠ "") (named : IsName name) :
    (directory.join ⟨name⟩).fileName? = some name := by
  obtain ⟨front, text, -⟩ := join_name there named
  have last : (directory.join ⟨name⟩).components.getLast? = some name := by
    rw [components, pieces_of_text text named]
    cases found : (⟨front⟩ : FilePath).pieces with
    | nil => exact absurd found (pieces_ne_nil _)
    | cons first others =>
        have kept : [name].filter (fun piece => !isIdle piece) = [name] := by
          simp [named.not_idle]
        dsimp only [List.cons_append]
        rw [List.filter_append, kept]
        split
        · rw [List.getLast?_concat]
        · rw [← List.cons_append, List.getLast?_concat]
  simp [fileName?, last, named.notHere, named.notUp]

/-! ## Extensions -/

theorem splitName_append {stem extension : String} (filled : stem ≠ "")
    (noPoint : '.' ∉ extension.toList) :
    splitName (stem ++ "." ++ extension) = (stem, some extension) := by
  have reversed : (stem ++ "." ++ extension).toList.reverse =
      extension.toList.reverse ++ '.' :: stem.toList.reverse := by simp
  have others : ∀ c ∈ extension.toList.reverse, (c != '.') = true := by
    intro c mem
    exact bne_iff_ne.2 fun point => noPoint (point ▸ List.mem_reverse.1 mem)
  have front : (extension.toList.reverse ++ '.' :: stem.toList.reverse).takeWhile (· != '.') =
      extension.toList.reverse := by
    simp [List.takeWhile_append_of_pos others]
  have behind : (extension.toList.reverse ++ '.' :: stem.toList.reverse).dropWhile (· != '.') =
      '.' :: stem.toList.reverse := by
    simp [List.dropWhile_append_of_pos others]
  rw [splitName, reversed, front, behind]
  cases found : stem.toList.reverse with
  | nil => exact absurd (String.toList_eq_nil_iff.1 (List.reverse_eq_nil_iff.1 found)) filled
  | cons c rest => simp [← found]

theorem splitName_eq {stem extension : String} (split : splitName name = (stem, some extension)) :
    stem ≠ "" ∧ '.' ∉ extension.toList ∧ name = stem ++ "." ++ extension := by
  have whole := List.takeWhile_append_dropWhile (p := (· != '.')) (l := name.toList.reverse)
  unfold splitName at split
  dsimp only at split
  split at split
  · cases split
  · cases split
  · rename_i point start none found
    cases split
    have ends : point = '.' := by
      have stops := List.head?_dropWhile_not (· != '.') name.toList.reverse
      rw [found] at stops
      simpa using stops
    have before := List.all_takeWhile (p := (· != '.')) (l := name.toList.reverse)
    refine ⟨fun empty => none (by simpa using empty), fun mem => ?_, ?_⟩
    · rw [String.toList_ofList, List.mem_reverse] at mem
      simpa using List.all_eq_true.1 before _ mem
    · rw [found, ends] at whole
      exact String.toList_inj.1 ((List.reverse_eq_iff.1 whole.symm).trans (by simp))

end FilePath

namespace FileTree

variable {tree : FileTree} {directory : FilePath} {place : Location} {name : String}

theorem follow_append (place : Location) (front behind : List String) :
    tree.follow place (front ++ behind) =
      tree.follow place front >>= fun place => tree.follow place behind := by
  induction front generalizing place with
  | nil => rfl
  | cons piece front ih =>
      rw [List.cons_append, follow, follow]
      split
      · rw [ih, ih, ih]
        split
        · rfl
        · split <;> rfl
      · split <;> rfl

theorem isDirectory_iff : tree.isDirectory directory = true ↔
    ∃ place, tree.locate directory = .ok place ∧ tree.hasDirectory place = true := by
  rw [isDirectory]
  split
  · rename_i place found
    simp [found]
  · rename_i found
    simp [found]

theorem text_of_locate (found : tree.locate directory = .ok place) : directory.text ≠ "" := by
  intro none
  rw [locate, if_pos (by simp [none])] at found
  cases found

theorem follow_name (named : FilePath.IsName name) (within : tree.hasDirectory place = true) :
    tree.follow place [name] = .ok (place ++ [name]) := by
  simp [follow, within, named.not_idle, named.notUp]

theorem locate_join (found : tree.locate directory = .ok place)
    (within : tree.hasDirectory place = true) (named : FilePath.IsName name) :
    tree.locate (directory.join ⟨name⟩) = .ok (place ++ [name]) := by
  have there := text_of_locate found
  obtain ⟨front, text, same⟩ := FilePath.join_name there named
  have filled : (directory.join ⟨name⟩).text.isEmpty = false := by simp [text]
  rw [locate, if_neg (by simpa using there)] at found
  rw [locate, filled, if_neg Bool.false_ne_true, FilePath.isAbsolute_join there named,
    FilePath.pieces_of_text text named, follow_append]
  generalize (if directory.isAbsolute = true then [] else tree.current) = start at found ⊢
  have reached : tree.follow start (⟨front⟩ : FilePath).pieces = .ok place := by
    rcases same with same | same
    · rwa [show directory = ⟨front⟩ from congrArg FilePath.mk same] at found
    · -- The empty piece behind the last slash stays in the same directory.
      have slash : directory.pieces = (⟨front⟩ : FilePath).pieces ++ [""] := by
        rw [show directory = ⟨front ++ "/" ++ ""⟩ from congrArg FilePath.mk (by simpa using same)]
        exact FilePath.pieces_append front ""
      rw [slash, follow_append] at found
      cases reached : tree.follow start (⟨front⟩ : FilePath).pieces with
      | error e =>
          rw [reached] at found
          cases found
      | ok place' =>
          rw [reached] at found
          change tree.follow place' [""] = .ok place at found
          unfold follow at found
          split at found
          · simpa [FilePath.isIdle, follow] using found
          · split at found <;> cases found
  rw [reached]
  exact follow_name named within

theorem mem_fileNames (found : tree.locate directory = .ok place) :
    name ∈ tree.fileNames directory ↔ (tree.fileAt? (place ++ [name])).isSome = true := by
  simp only [fileNames, found, fileAt?, List.mem_filterMap, Option.isSome_map, List.find?_isSome]
  refine exists_congr fun entry => and_congr_right fun _ => ?_
  rw [Option.ite_none_right_eq_some, beq_iff_eq, beq_iff_eq]
  constructor
  · rintro ⟨rfl, last⟩
    obtain ⟨before, split⟩ := List.getLast?_eq_some_iff.1 last
    simp [split]
  · intro split
    simp [split]

/-- A name behind a directory leads to the file of that name in it. -/
theorem isFile_join (there : tree.isDirectory directory = true) (named : FilePath.IsName name) :
    tree.isFile (directory.join ⟨name⟩) = true ↔ name ∈ tree.fileNames directory := by
  obtain ⟨place, found, within⟩ := isDirectory_iff.1 there
  rw [isFile, locate_join found within named, mem_fileNames found]

/-- A name alone leads to the file of that name in the current directory. -/
theorem isFile_name (named : FilePath.IsName name) :
    tree.isFile ⟨name⟩ = true ↔ name ∈ tree.fileNames ⟨"."⟩ := by
  have here : tree.locate ⟨"."⟩ = tree.follow tree.current ["."] := by rfl
  have alone : tree.locate ⟨name⟩ = tree.follow tree.current [name] := by
    simp [locate, named.filled, named.relative, FilePath.pieces_name named]
  cases within : tree.hasDirectory tree.current with
  | true =>
      have here : tree.locate ⟨"."⟩ = .ok tree.current := by
        simp [here, follow, within, FilePath.isIdle]
      rw [mem_fileNames here, isFile, alone, follow_name named within]
  | false =>
      -- From a current directory that is gone, neither path leads anywhere.
      have nowhere (piece : String) : ∃ e, tree.follow tree.current [piece] = .error e := by
        rw [follow, within, if_neg Bool.false_ne_true]
        split <;> exact ⟨_, rfl⟩
      obtain ⟨e, failed⟩ := nowhere "."
      obtain ⟨e', failed'⟩ := nowhere name
      rw [fileNames, here, failed, isFile, alone, failed']
      simp

/-- All names in a tree can name files. -/
def Named (tree : FileTree) : Prop := ∀ entry ∈ tree.files, ∀ name ∈ entry.1, FilePath.IsName name

instance (tree : FileTree) : Decidable tree.Named :=
  inferInstanceAs (Decidable (∀ entry ∈ tree.files, ∀ name ∈ entry.1, FilePath.IsName name))

theorem Named.of_mem_fileNames (proper : tree.Named) (mem : name ∈ tree.fileNames directory) :
    FilePath.IsName name := by
  unfold fileNames at mem
  split at mem
  · obtain ⟨entry, listed, last⟩ := List.mem_filterMap.1 mem
    rw [Option.ite_none_right_eq_some] at last
    exact proper entry listed name (List.mem_of_getLast? last.2)
  · cases mem

end FileTree

end DecisionTable
