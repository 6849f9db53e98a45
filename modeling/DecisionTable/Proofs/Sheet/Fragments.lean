import DecisionTable.Proofs.Sheet.Template
import Mathlib.Data.List.Forall2

/-! # Fragments and what is parsed of them

A side of a record compiles just when each of its columns has a template and each filled
template is a formula. What comes out stands fragment by fragment in the order of the columns.
So a rule has a term for each text on its condition side, no more and no fewer.
-/

namespace DecisionTable

theorem exists_of_mem_right {α β : Type} {R : α → β → Prop} {xs : List α} {ys : List β}
    (related : List.Forall₂ R xs ys) {y : β} (mem : y ∈ ys) : ∃ x ∈ xs, R x y := by
  induction related with
  | nil => cases mem
  | cons first _ ih =>
      rcases List.mem_cons.1 mem with rfl | mem
      · exact ⟨_, List.mem_cons_self, first⟩
      · obtain ⟨x, memX, rel⟩ := ih mem
        exact ⟨x, List.mem_cons_of_mem _ memX, rel⟩

/-- Some element of a list is at fault and all before it are sound: the first one, or one behind it
    if the first one is sound. -/
theorem exists_first_cons_iff {α : Type} {sound : α → Prop} (fault : Nat → α → Prop) {y : α}
    {ys : List α} :
    (∃ before x after, y :: ys = before ++ x :: after ∧ (∀ b ∈ before, sound b) ∧
        fault before.length x) ↔
      fault 0 y ∨ sound y ∧ ∃ before x after, ys = before ++ x :: after ∧
        (∀ b ∈ before, sound b) ∧ fault (before.length + 1) x := by
  constructor
  · rintro ⟨before, x, after, split, earlier, here⟩
    cases before with
    | nil =>
        cases split
        exact .inl here
    | cons b before =>
        cases split
        obtain ⟨first, earlier⟩ := List.forall_mem_cons.1 earlier
        exact .inr ⟨first, before, x, after, rfl, earlier, here⟩
  · rintro (here | ⟨first, before, x, after, rfl, earlier, here⟩)
    · exact ⟨[], y, ys, rfl, List.forall_mem_nil _, here⟩
    · exact ⟨y :: before, x, after, rfl, List.forall_mem_cons.2 ⟨first, earlier⟩, here⟩

theorem parseFragments_eq_ok_iff {α : Type} {parse : String → Except ParseError α} {index : Nat}
    {fragments : List String} {parts : List α} :
    parseFragments parse index fragments = .ok parts ↔
      List.Forall₂ (fun fragment part => parse fragment = .ok part) fragments parts := by
  induction fragments generalizing index parts with
  | nil =>
      rw [parseFragments, List.forall₂_nil_left_iff]
      exact ⟨fun h => (Except.ok.inj h).symm, fun h => h ▸ rfl⟩
  | cons fragment fragments ih =>
      rw [parseFragments, List.forall₂_cons_left_iff]
      cases read : parse fragment with
      | error cause => simp
      | ok part =>
          simp only [Parser.map_eq_ok, ih]
          constructor
          · rintro ⟨others, readOthers, rfl⟩
            exact ⟨part, others, rfl, readOthers, rfl⟩
          · rintro ⟨part', others, ⟨⟩, readOthers, rfl⟩
            exact ⟨others, readOthers, rfl⟩

/-- Parsing stops at the first fragment that is no formula, and tells its place. -/
theorem parseFragments_eq_error_iff {α : Type} {parse : String → Except ParseError α}
    {index : Nat} {fragments : List String} {e : FragmentError} :
    parseFragments parse index fragments = .error e ↔
      ∃ before fragment after, fragments = before ++ fragment :: after ∧
        (∀ f ∈ before, ∃ part, parse f = .ok part) ∧
        e.index = index + before.length ∧ parse fragment = .error e.cause := by
  induction fragments generalizing index with
  | nil => simp [parseFragments]
  | cons fragment fragments ih =>
      rw [parseFragments, exists_first_cons_iff
        fun n f => e.index = index + n ∧ parse f = .error e.cause]
      cases read : parse fragment with
      | error cause =>
          obtain ⟨place, cause'⟩ := e
          simp [eq_comm]
      | ok part =>
          simp [Parser.map_eq_error, ih, Nat.add_right_comm, Nat.add_assoc]

theorem Condition.parse_eq_ok_iff {fragments : List String} {c : Condition} :
    parse fragments = .ok c ↔
      List.Forall₂ (fun fragment term => Expression.parse fragment = .ok term)
          fragments c.terms ∧
        c.source = String.intercalate " && " fragments := by
  obtain ⟨source, terms⟩ := c
  simp only [parse, Parser.map_eq_ok, parseFragments_eq_ok_iff, mk.injEq]
  constructor
  · rintro ⟨terms, read, rfl, rfl⟩
    exact ⟨read, rfl⟩
  · rintro ⟨read, rfl⟩
    exact ⟨terms, read, rfl, rfl⟩

theorem Consequence.parse_eq_ok_iff {fragments : List String} {c : Consequence} :
    parse fragments = .ok c ↔
      (∃ parts, List.Forall₂ (fun fragment part => Statement.parseAll fragment = .ok part)
          fragments parts ∧ c.statements = parts.flatten) ∧
        c.source = String.intercalate "\n" fragments := by
  obtain ⟨source, statements⟩ := c
  simp only [parse, Parser.map_eq_ok, parseFragments_eq_ok_iff, mk.injEq]
  constructor
  · rintro ⟨parts, read, rfl, rfl⟩
    exact ⟨⟨parts, read, rfl⟩, rfl⟩
  · rintro ⟨⟨parts, read, rfl⟩, rfl⟩
    exact ⟨parts, read, rfl, rfl⟩

namespace Compile

/-- A fragment is the template of a column with a text in the place of its placeholder. -/
def Fills (bindings : ColumnMap) (placeholder : String) (entry : UInt32 × String)
    (fragment : String) : Prop :=
  ∃ template, bindings.get? entry.1 = some template ∧
    FirstReplaced template placeholder entry.2 fragment

theorem fragments_eq_ok_iff {rule : String} {bindings : ColumnMap} {placeholder : String}
    {texts : ColumnMap} {parts : List Fragment} :
    fragments rule bindings placeholder texts = .ok parts ↔
      List.Forall₂ (fun entry part => part.column = entry.1 ∧
        Fills bindings placeholder entry part.text) texts parts := by
  induction texts generalizing parts with
  | nil =>
      rw [fragments, List.forall₂_nil_left_iff]
      exact ⟨fun h => (Except.ok.inj h).symm, fun h => h ▸ rfl⟩
  | cons entry texts ih =>
      obtain ⟨column, text⟩ := entry
      rw [fragments, List.forall₂_cons_left_iff]
      cases found : bindings.get? column with
      | none => simp [Fills, found]
      | some template =>
          simp only [Parser.map_eq_ok, ih, Fills, found, Option.some.injEq, exists_eq_left',
            ← substitute_eq_iff]
          constructor
          · rintro ⟨others, filled, rfl⟩
            exact ⟨⟨column, _⟩, others, ⟨rfl, rfl⟩, filled, rfl⟩
          · rintro ⟨⟨_, _⟩, others, ⟨rfl, rfl⟩, filled, rfl⟩
            exact ⟨others, filled, rfl⟩

/-- Filling stops at the first column without a template. -/
theorem fragments_eq_error_iff {rule : String} {bindings : ColumnMap} {placeholder : String}
    {texts : ColumnMap} {e : TableError} :
    fragments rule bindings placeholder texts = .error e ↔
      ∃ before entry after, texts = before ++ entry :: after ∧
        (∀ b ∈ before, bindings.get? b.1 ≠ none) ∧
        bindings.get? entry.1 = none ∧ e = .missingBinding rule entry.1 := by
  induction texts with
  | nil => simp [fragments]
  | cons entry texts ih =>
      rw [fragments, exists_first_cons_iff fun _ (entry : UInt32 × String) =>
        bindings.get? entry.1 = none ∧ e = .missingBinding rule entry.1]
      cases found : bindings.get? entry.1 with
      | none => simp [eq_comm]
      | some template => simp [Parser.map_eq_error, ih]

/-- Fragments can be told their columns. -/
theorem exists_parts {bindings : ColumnMap} {placeholder : String} {texts : ColumnMap}
    {fragments : List String} (filled : List.Forall₂ (Fills bindings placeholder) texts fragments) :
    ∃ parts : List Fragment, parts.map (·.text) = fragments ∧
      List.Forall₂ (fun entry part => part.column = entry.1 ∧
        Fills bindings placeholder entry part.text) texts parts := by
  induction filled with
  | nil => exact ⟨[], rfl, .nil⟩
  | @cons entry fragment texts fragments fills _ ih =>
      obtain ⟨parts, rfl, filled⟩ := ih
      exact ⟨⟨entry.1, fragment⟩ :: parts, rfl, .cons ⟨rfl, fills⟩ filled⟩

theorem side_eq_ok_iff {α : Type} (rule : String) {bindings : ColumnMap} {placeholder : String}
    {parse : List String → Except FragmentError α} {texts : ColumnMap} {a : α} :
    side rule bindings placeholder parse texts = .ok a ↔
      ∃ fragments, List.Forall₂ (Fills bindings placeholder) texts fragments ∧
        parse fragments = .ok a := by
  have mapError_eq_ok {ε ε' : Type} {x : Except ε α} {f : ε → ε'} :
      x.mapError f = .ok a ↔ x = .ok a := by
    cases x <;> simp [Except.mapError]
  simp only [side, Parser.bind_eq_ok, mapError_eq_ok, fragments_eq_ok_iff]
  constructor
  · rintro ⟨parts, filled, read⟩
    refine ⟨parts.map (·.text), ?_, read⟩
    rw [List.forall₂_map_right_iff]
    exact filled.imp fun _ _ filled => filled.2
  · rintro ⟨fragments, filled, read⟩
    obtain ⟨parts, rfl, told⟩ := exists_parts filled
    exact ⟨parts, told, read⟩

theorem record_eq_ok_iff {bindings : ColumnMap} {syn : TableSyntax} {name : String}
    {r : RuleRecord} {rule : CompiledRule} :
    record bindings syn name r = .ok rule ↔
      rule.name = name ∧
        (∃ fragments, List.Forall₂ (Fills bindings syn.placeholder) r.conditions fragments ∧
          Condition.parse fragments = .ok rule.condition) ∧
        ∃ fragments, List.Forall₂ (Fills bindings syn.placeholder) r.consequences fragments ∧
          Consequence.parse fragments = .ok rule.consequence := by
  simp only [record, Parser.bind_eq_ok, ← side_eq_ok_iff name]
  constructor
  · rintro ⟨condition, readCondition, consequence, readConsequence, ⟨⟩⟩
    exact ⟨rfl, readCondition, readConsequence⟩
  · rintro ⟨rfl, readCondition, readConsequence⟩
    exact ⟨_, readCondition, _, readConsequence, rfl⟩

theorem records_eq_ok_iff {bindings : ColumnMap} {syn : TableSyntax} {entries : RuleRecords}
    {rules : RuleSet} :
    records bindings syn entries = .ok rules ↔
      List.Forall₂ (fun entry rule => record bindings syn entry.1 entry.2 = .ok rule)
        entries rules := by
  induction entries generalizing rules with
  | nil =>
      rw [records, List.forall₂_nil_left_iff]
      exact ⟨fun h => (Except.ok.inj h).symm, fun h => h ▸ rfl⟩
  | cons entry entries ih =>
      simp only [records, Parser.bind_eq_ok, ih, List.forall₂_cons_left_iff]
      constructor
      · rintro ⟨rule, compiled, others, compiledOthers, ⟨⟩⟩
        exact ⟨rule, others, compiled, compiledOthers, rfl⟩
      · rintro ⟨rule, others, compiled, compiledOthers, rfl⟩
        exact ⟨rule, compiled, others, compiledOthers, rfl⟩

end Compile

end DecisionTable
