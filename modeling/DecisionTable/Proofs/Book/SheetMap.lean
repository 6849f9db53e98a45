import DecisionTable.Book.Basic

/-! # Sheets by their ids

What is looked up after a change of a sheet map, and the order that changes keep. In ascending
order of ids a map is determined by what is looked up in it (`Sorted.ext`).
-/

namespace DecisionTable

namespace SheetMap

/-- Ascending order of ids, without repetition. -/
def Sorted (sheets : SheetMap) : Prop := sheets.Pairwise (·.id < ·.id)

theorem get?_cons (id : String) (sheet : Sheet) (sheets : SheetMap) :
    get? id (sheet :: sheets) = if sheet.id = id then some sheet else get? id sheets := by
  by_cases eq : sheet.id = id <;> simp [get?, eq]

theorem get?_insert (id : String) (sheet : Sheet) (sheets : SheetMap) :
    get? id (insert sheet sheets) = if sheet.id = id then some sheet else get? id sheets := by
  induction sheets with
  | nil => rw [insert, get?_cons]
  | cons other rest ih =>
      rw [insert]
      split
      · rw [get?_cons]
      · split
        · rename_i same
          rw [get?_cons, get?_cons, ← same]
          split <;> rfl
        · rename_i other_ne
          rw [get?_cons, get?_cons, ih]
          split
          · rename_i eq
            rw [if_neg (eq ▸ other_ne)]
          · rfl

theorem get?_erase (id id' : String) (sheets : SheetMap) :
    get? id' (erase id sheets) = if id = id' then none else get? id' sheets := by
  induction sheets with
  | nil => simp [erase, get?]
  | cons sheet rest ih =>
      rw [erase] at ih ⊢
      by_cases eq : sheet.id = id
      · rw [List.filter_cons_of_neg (by simp [eq]), ih, get?_cons, eq]
        split <;> rfl
      · rw [List.filter_cons_of_pos (by simp [eq]), get?_cons, get?_cons, ih]
        split
        · rename_i found
          rw [if_neg (found ▸ Ne.symm eq)]
        · rfl

theorem mem_insert {sheet other : Sheet} {sheets : SheetMap}
    (mem : other ∈ insert sheet sheets) : other = sheet ∨ other ∈ sheets := by
  induction sheets with
  | nil => simpa [insert] using mem
  | cons first rest ih =>
      rw [insert] at mem
      split at mem
      · simpa using mem
      · split at mem
        · exact (List.mem_cons.1 mem).imp_right (List.mem_cons_of_mem _)
        · rcases List.mem_cons.1 mem with rfl | mem
          · exact .inr List.mem_cons_self
          · exact (ih mem).imp_right (List.mem_cons_of_mem _)

theorem Sorted.insert {sheets : SheetMap} (sorted : Sorted sheets) (sheet : Sheet) :
    Sorted (insert sheet sheets) := by
  induction sheets with
  | nil => exact List.pairwise_singleton _ _
  | cons first rest ih =>
      obtain ⟨below, sortedRest⟩ := List.pairwise_cons.1 sorted
      rw [SheetMap.insert]
      split
      · rename_i less
        refine List.pairwise_cons.2 ⟨fun other mem => ?_, sorted⟩
        rcases List.mem_cons.1 mem with rfl | mem
        · exact less
        · exact String.lt_trans less (below other mem)
      · rename_i notLess
        split
        · rename_i same
          exact List.pairwise_cons.2 ⟨fun other mem => same ▸ below other mem, sortedRest⟩
        · rename_i other_ne
          refine List.pairwise_cons.2 ⟨fun other mem => ?_, ih sortedRest⟩
          rcases mem_insert mem with rfl | mem
          · exact Decidable.byContradiction fun notGreater => other_ne
              (String.le_antisymm (String.not_lt.1 notGreater) (String.not_lt.1 notLess))
          · exact below other mem

theorem Sorted.erase {sheets : SheetMap} (sorted : Sorted sheets) (id : String) :
    Sorted (erase id sheets) :=
  List.Pairwise.filter _ sorted

theorem get?_eq_none {id : String} {sheets : SheetMap} (above : ∀ s ∈ sheets, id < s.id) :
    get? id sheets = none := by
  refine List.find?_eq_none.2 fun s mem eq => ?_
  have := above s mem
  rw [beq_iff_eq.1 eq] at this
  exact String.lt_irrefl id this

theorem mem_of_get?_eq_some {id : String} {sheet : Sheet} {sheets : SheetMap}
    (found : get? id sheets = some sheet) : sheet ∈ sheets ∧ sheet.id = id := by
  have same := List.find?_some found
  exact ⟨List.mem_of_find?_eq_some found, by simpa using same⟩

theorem mem_ids_iff (id : String) (sheets : SheetMap) :
    id ∈ sheets.map (·.id) ↔ (get? id sheets).isSome := by
  simp [get?]

/-- Each sheet is found under its id. -/
theorem Sorted.get?_self {sheets : SheetMap} (sorted : Sorted sheets) :
    ∀ sheet ∈ sheets, get? sheet.id sheets = some sheet := by
  induction sheets with
  | nil => exact fun _ mem => nomatch mem
  | cons first rest ih =>
      obtain ⟨below, sortedRest⟩ := List.pairwise_cons.1 sorted
      intro sheet mem
      rw [get?_cons]
      rcases List.mem_cons.1 mem with rfl | mem
      · exact if_pos rfl
      · have less := below sheet mem
        rw [if_neg fun eq => String.lt_irrefl _ (eq ▸ less), ih sortedRest sheet mem]

/-- A sheet adds its rules, less those of the sheet that it replaces. -/
theorem Sorted.length_insert {sheets : SheetMap} (sorted : sheets.Sorted)
    (sheet : Sheet) :
    ((SheetMap.insert sheet sheets).flatMap (·.rules)).length +
        ((get? sheet.id sheets).map (·.rules)).elim 0 List.length =
      (sheets.flatMap (·.rules)).length + sheet.rules.length := by
  induction sheets with
  | nil => simp [SheetMap.insert, get?]
  | cons other rest ih =>
      obtain ⟨below, sortedRest⟩ := List.pairwise_cons.1 sorted
      rw [SheetMap.insert]
      split
      · rename_i less
        have absent : get? sheet.id (other :: rest) = none :=
          get?_eq_none fun s mem => by
            rcases List.mem_cons.1 mem with rfl | mem
            · exact less
            · exact String.lt_trans less (below s mem)
        simp only [absent, List.flatMap_cons, List.length_append, Option.map_none,
          Option.elim_none]
        omega
      · rw [get?_cons]
        split
        · rename_i same
          simp only [if_pos same.symm, List.flatMap_cons, List.length_append, Option.map_some,
            Option.elim_some]
          omega
        · rename_i differs
          have := ih sortedRest
          simp only [if_neg (Ne.symm differs), List.flatMap_cons, List.length_append]
          omega

theorem Sorted.ext {sheets sheets' : SheetMap} (sorted : Sorted sheets) (sorted' : Sorted sheets')
    (same : ∀ id, get? id sheets = get? id sheets') : sheets = sheets' := by
  induction sheets generalizing sheets' with
  | nil =>
      match sheets' with
      | [] => rfl
      | s :: rest =>
          have := same s.id
          rw [get?_cons, if_pos rfl] at this
          cases this
  | cons s rest ih =>
      match sheets' with
      | [] =>
          have := same s.id
          rw [get?_cons, if_pos rfl] at this
          cases this
      | t :: rest' =>
          obtain ⟨below, sortedRest⟩ := List.pairwise_cons.1 sorted
          obtain ⟨below', sortedRest'⟩ := List.pairwise_cons.1 sorted'
          have found := same s.id
          have found' := same t.id
          rw [get?_cons, if_pos rfl] at found
          rw [get?_cons t.id t, if_pos rfl] at found'
          have eq : s = t := by
            rcases List.mem_cons.1 (mem_of_get?_eq_some found.symm).1 with eq | mem
            · exact eq
            · rcases List.mem_cons.1 (mem_of_get?_eq_some found').1 with eq | mem'
              · exact eq.symm
              · exact absurd (below t mem') (String.lt_asymm (below' s mem))
          subst eq
          rw [ih sortedRest sortedRest' fun id => ?_]
          have others := same id
          rw [get?_cons, get?_cons] at others
          by_cases here : s.id = id
          · subst here
            rw [get?_eq_none below, get?_eq_none below']
          · simpa only [here, if_false] using others

end SheetMap

end DecisionTable
