import DecisionTable.Proofs.Sheet.Fragments

/-! # The first fault of a table

What is wrong with records that do not compile, told from the records and the templates alone: the
first record at fault, its conditions before its consequences, and on one side a column without a
template before a fragment that is no formula. Of each the least column is the one named.
-/

namespace DecisionTable

/-- Of ascending elements, the first with a property is the least one. -/
theorem exists_first_iff_least {α : Type} {key : α → UInt32} {P : α → Prop} {xs : List α} {x : α}
    (ascending : xs.Pairwise (key · < key ·)) :
    (∃ before after, xs = before ++ x :: after ∧ (∀ b ∈ before, ¬ P b) ∧ P x) ↔
      x ∈ xs ∧ P x ∧ ∀ y ∈ xs, P y → key x ≤ key y := by
  constructor
  · rintro ⟨before, after, rfl, earlier, here⟩
    refine ⟨by simp, here, fun y mem faulty => ?_⟩
    obtain ⟨-, behind, -⟩ := List.pairwise_append.1 ascending
    rcases List.mem_append.1 mem with mem | mem
    · exact absurd faulty (earlier y mem)
    · rcases List.mem_cons.1 mem with rfl | mem
      · exact UInt32.le_refl _
      · exact UInt32.le_of_lt ((List.pairwise_cons.1 behind).1 y mem)
  · rintro ⟨mem, here, least⟩
    obtain ⟨before, after, rfl⟩ := List.append_of_mem mem
    obtain ⟨-, -, apart⟩ := List.pairwise_append.1 ascending
    refine ⟨before, after, rfl, fun b memB faulty => ?_, here⟩
    exact UInt32.not_lt.2 (least b (List.mem_append_left _ memB) faulty)
      (apart b memB x List.mem_cons_self)

namespace ColumnMap

/-- At most one text for each column, in ascending order. -/
def Ascending (map : ColumnMap) : Prop := map.Pairwise (·.1 < ·.1)

instance (map : ColumnMap) : Decidable map.Ascending :=
  inferInstanceAs (Decidable (map.Pairwise (·.1 < ·.1)))

theorem mem_insert {column : UInt32} {text : String} {map : ColumnMap} {entry : UInt32 × String}
    (mem : entry ∈ insert column text map) : entry = (column, text) ∨ entry ∈ map := by
  induction map with
  | nil => simpa [insert] using mem
  | cons first rest ih =>
      rw [insert] at mem
      split at mem
      · exact List.mem_cons.1 mem
      · split at mem
        · exact (List.mem_cons.1 mem).imp_right (List.mem_cons_of_mem _)
        · rcases List.mem_cons.1 mem with rfl | mem
          · exact .inr List.mem_cons_self
          · exact (ih mem).imp_right (List.mem_cons_of_mem _)

theorem Ascending.insert {map : ColumnMap} (ascending : map.Ascending) (column : UInt32)
    (text : String) : Ascending (map.insert column text) := by
  induction map with
  | nil => exact List.pairwise_singleton _ _
  | cons first rest ih =>
      obtain ⟨below, ascendingRest⟩ := List.pairwise_cons.1 ascending
      rw [ColumnMap.insert]
      split
      · rename_i less
        refine List.pairwise_cons.2 ⟨fun entry mem => ?_, ascending⟩
        rcases List.mem_cons.1 mem with rfl | mem
        · exact less
        · exact UInt32.lt_trans less (below entry mem)
      · rename_i notLess
        split
        · rename_i same
          exact List.pairwise_cons.2 ⟨fun entry mem => same ▸ below entry mem, ascendingRest⟩
        · rename_i differs
          refine List.pairwise_cons.2 ⟨fun entry mem => ?_, ih ascendingRest⟩
          rcases mem_insert mem with rfl | mem
          · exact UInt32.lt_of_le_of_ne (UInt32.not_lt.1 notLess) (Ne.symm differs)
          · exact below entry mem

theorem ascending_ofList (entries : List (UInt32 × String)) : (ofList entries).Ascending := by
  have stored (map : ColumnMap) (ascending : map.Ascending) : Ascending
      (entries.foldl (fun map entry => map.insert entry.1 entry.2) map) := by
    induction entries generalizing map with
    | nil => exact ascending
    | cons entry entries ih => exact ih _ (ascending.insert entry.1 entry.2)
  exact stored [] .nil

end ColumnMap

/-- The texts of each side are told by their columns. -/
structure RuleRecord.Ascending (r : RuleRecord) : Prop where
  conditions : r.conditions.Ascending
  consequences : r.consequences.Ascending

theorem RuleRow.ascending_record (gapColumn : UInt32) (row : RuleRow) :
    (row.record gapColumn).Ascending :=
  ⟨ColumnMap.ascending_ofList _, ColumnMap.ascending_ofList _⟩

namespace RuleRecords

theorem forall_mem_insert {P : RuleRecord → Prop} {entries : RuleRecords}
    (all : ∀ entry ∈ entries, P entry.2) (name : String) {r : RuleRecord} (new : P r) :
    ∀ entry ∈ insert name r entries, P entry.2 := by
  induction entries with
  | nil => simpa [insert] using new
  | cons first rest ih =>
      obtain ⟨here, others⟩ := List.forall_mem_cons.1 all
      rw [insert]
      split
      · exact List.forall_mem_cons.2 ⟨new, others⟩
      · exact List.forall_mem_cons.2 ⟨here, ih others⟩

theorem ascending_ofCells (gapColumn : UInt32) (cells : List Cell) :
    ∀ entry ∈ ofCells gapColumn cells, entry.2.Ascending := by
  rw [ofCells]
  generalize RuleRow.ofCells cells = rows
  have stored (entries : RuleRecords) (all : ∀ entry ∈ entries, entry.2.Ascending) :
      ∀ entry ∈ rows.foldl (fun records row =>
        insert row.label.value.render (row.record gapColumn) records) entries,
        entry.2.Ascending := by
    induction rows generalizing entries with
    | nil => exact all
    | cons row rows ih => exact ih _ (forall_mem_insert all _ (row.ascending_record gapColumn))
  exact stored [] (List.forall_mem_nil _)

end RuleRecords

namespace Compile

variable {α β : Type} {rule : String} {bindings : ColumnMap} {placeholder : String}
  {parse : String → Except ParseError α} {texts : ColumnMap} {parts : List Fragment}

/-- Each column of a side has a template, and each text makes a formula of it. -/
def Formed (bindings : ColumnMap) (placeholder : String) (parse : String → Except ParseError α)
    (texts : ColumnMap) : Prop :=
  ∀ entry ∈ texts, ∃ fragment part, Fills bindings placeholder entry fragment ∧
    parse fragment = .ok part

/-- The least column of a side that has no template. -/
structure Unbound (bindings texts : ColumnMap) (column : UInt32) : Prop where
  mem : ∃ text, (column, text) ∈ texts
  unbound : bindings.get? column = none
  least : ∀ entry ∈ texts, bindings.get? entry.1 = none → column ≤ entry.1

/-- The least column of a side whose fragment is no formula, with the fragment and the reason. -/
structure Malformed (bindings : ColumnMap) (placeholder : String)
    (parse : String → Except ParseError α) (texts : ColumnMap) (column : UInt32)
    (fragment : String) (cause : ParseError) : Prop where
  fills : ∃ text, (column, text) ∈ texts ∧ Fills bindings placeholder (column, text) fragment
  fails : parse fragment = .error cause
  least : ∀ entry ∈ texts, ∀ fragment cause, Fills bindings placeholder entry fragment →
    parse fragment = .error cause → column ≤ entry.1

/-- What is wrong with a side of a record. Its fragments count when all columns have templates. -/
inductive SideFault (rule : String) (bindings : ColumnMap) (placeholder : String)
    (parse : String → Except ParseError α) (texts : ColumnMap) : TableError → Prop where
  | unbound {column : UInt32} (unbound : Unbound bindings texts column) :
      SideFault rule bindings placeholder parse texts (.missingBinding rule column)
  | malformed {column : UInt32} {fragment : String} {cause : ParseError}
      (bound : ∀ entry ∈ texts, bindings.get? entry.1 ≠ none)
      (malformed : Malformed bindings placeholder parse texts column fragment cause) :
      SideFault rule bindings placeholder parse texts (.expression rule column fragment cause)

theorem Fills.unique {entry : UInt32 × String} {fragment fragment' : String}
    (fills : Fills bindings placeholder entry fragment)
    (fills' : Fills bindings placeholder entry fragment') : fragment = fragment' := by
  obtain ⟨template, found, replaced⟩ := fills
  obtain ⟨template', found', replaced'⟩ := fills'
  obtain rfl := Option.some.inj (found.symm.trans found')
  rw [← substitute_eq_iff] at replaced replaced'
  exact replaced.symm.trans replaced'

theorem SideFault.not_formed {e : TableError}
    (fault : SideFault rule bindings placeholder parse texts e) :
    ¬ Formed bindings placeholder parse texts := by
  intro formed
  cases fault with
  | unbound unbound =>
      obtain ⟨text, mem⟩ := unbound.mem
      obtain ⟨fragment, part, ⟨template, found, -⟩, -⟩ := formed _ mem
      rw [unbound.unbound] at found
      cases found
  | malformed _ malformed =>
      obtain ⟨text, mem, fills⟩ := malformed.fills
      obtain ⟨fragment, part, fills', read⟩ := formed _ mem
      have fails := malformed.fails
      rw [fills.unique fills', read] at fails
      cases fails

theorem mem_parts_iff (filled : fragments rule bindings placeholder texts = .ok parts)
    (part : Fragment) : part ∈ parts ↔ ∃ entry ∈ texts, part.column = entry.1 ∧
      Fills bindings placeholder entry part.text := by
  have told := fragments_eq_ok_iff.1 filled
  constructor
  · exact exists_of_mem_right told
  · rintro ⟨entry, mem, column, fills⟩
    obtain ⟨⟨column', text'⟩, mem', rfl, fills'⟩ := exists_of_mem_right told.flip mem
    obtain ⟨place, text⟩ := part
    dsimp only at column fills fills'
    rwa [column, fills.unique fills']

theorem ascending_parts (ascending : texts.Ascending)
    (filled : fragments rule bindings placeholder texts = .ok parts) :
    parts.Pairwise (·.column < ·.column) := by
  have columns : parts.map (·.column) = texts.map Prod.fst := by
    rw [← List.forall₂_eq_eq_eq, List.forall₂_map_left_iff, List.forall₂_map_right_iff]
    exact (fragments_eq_ok_iff.1 filled).flip.imp fun _ _ told => told.1
  have := List.pairwise_map.2 ascending
  rw [← columns] at this
  exact List.pairwise_map.1 this

/-- The first column without a template is the least one. -/
theorem fragments_eq_error_iff_unbound (ascending : texts.Ascending) {e : TableError} :
    fragments rule bindings placeholder texts = .error e ↔
      ∃ column, Unbound bindings texts column ∧ e = .missingBinding rule column := by
  have least (entry : UInt32 × String) := exists_first_iff_least (x := entry)
    (P := fun entry => bindings.get? entry.1 = none) ascending
  rw [fragments_eq_error_iff]
  constructor
  · rintro ⟨before, entry, after, split, earlier, unbound, rfl⟩
    obtain ⟨mem, -, lowest⟩ := (least entry).1 ⟨before, after, split, earlier, unbound⟩
    exact ⟨entry.1, ⟨⟨entry.2, mem⟩, unbound, lowest⟩, rfl⟩
  · rintro ⟨column, ⟨⟨text, mem⟩, unbound, lowest⟩, rfl⟩
    obtain ⟨before, after, split, earlier, -⟩ := (least (column, text)).2 ⟨mem, unbound, lowest⟩
    exact ⟨before, _, after, split, earlier, unbound, rfl⟩

/-- The first fragment that is no formula is that of the least column. -/
theorem exists_malformed_iff (ascending : texts.Ascending)
    (filled : fragments rule bindings placeholder texts = .ok parts) {part : Fragment}
    {cause : ParseError} :
    (∃ before after, parts = before ++ part :: after ∧
        (∀ b ∈ before, ∃ a, parse b.text = .ok a) ∧ parse part.text = .error cause) ↔
      Malformed bindings placeholder parse texts part.column part.text cause := by
  have parses_iff (x : Except ParseError α) : (∃ a, x = .ok a) ↔ ¬ ∃ cause, x = .error cause := by
    cases x <;> simp
  have told := mem_parts_iff filled
  have least := exists_first_iff_least (x := part)
    (P := fun part => ∃ cause, parse part.text = .error cause) (ascending_parts ascending filled)
  simp only [parses_iff]
  constructor
  · rintro ⟨before, after, split, earlier, fails⟩
    obtain ⟨mem, -, lowest⟩ := least.1 ⟨before, after, split, earlier, cause, fails⟩
    obtain ⟨entry, memEntry, column, fills⟩ := (told part).1 mem
    refine ⟨⟨entry.2, column ▸ memEntry, column ▸ fills⟩, fails, ?_⟩
    intro other memOther fragment cause' fills' fails'
    exact lowest ⟨other.1, fragment⟩ ((told _).2 ⟨other, memOther, rfl, fills'⟩) ⟨cause', fails'⟩
  · rintro ⟨⟨text, mem, fills⟩, fails, lowest⟩
    obtain ⟨before, after, split, earlier, -⟩ := least.2
      ⟨(told part).2 ⟨_, mem, rfl, fills⟩, ⟨cause, fails⟩, fun other memOther ⟨cause', fails'⟩ => by
        obtain ⟨entry, memEntry, column, fills'⟩ := (told other).1 memOther
        exact column ▸ lowest entry memEntry _ _ fills' fails'⟩
    exact ⟨before, after, split, earlier, fails⟩

/-- The fragment that an error names is looked up by the number of fragments before it. -/
theorem expressionError_eq (rule : String) (before : List Fragment) (part : Fragment)
    (after : List Fragment) (cause : ParseError) :
    expressionError rule (before ++ part :: after) ⟨before.length, cause⟩ =
      .expression rule part.column part.text cause := by
  simp [expressionError]

theorem parsed_eq_error_iff {f : List α → β} {e : TableError} :
    ((parseFragments parse 0 (parts.map (·.text))).map f).mapError (expressionError rule parts) =
        .error e ↔
      ∃ part cause, (∃ before after, parts = before ++ part :: after ∧
        (∀ b ∈ before, ∃ a, parse b.text = .ok a) ∧ parse part.text = .error cause) ∧
        e = .expression rule part.column part.text cause := by
  have mapError_eq_error {x : Except FragmentError β} {f : FragmentError → TableError} :
      x.mapError f = .error e ↔ ∃ e', x = .error e' ∧ f e' = e := by
    cases x <;> simp [Except.mapError]
  simp only [mapError_eq_error, Parser.map_eq_error, parseFragments_eq_error_iff]
  constructor
  · rintro ⟨⟨place, cause⟩, ⟨front, fragment, back, split, earlier, at_, fails⟩, rfl⟩
    obtain ⟨before, behind, rfl, rfl, onward⟩ := List.map_eq_append_iff.1 split
    obtain ⟨part, after, rfl, rfl, rfl⟩ := List.map_eq_cons_iff.1 onward
    obtain rfl : place = before.length := by simpa using at_
    exact ⟨part, cause, ⟨before, after, rfl, fun b mem => earlier _ (List.mem_map_of_mem mem),
      fails⟩, expressionError_eq rule before part after cause⟩
  · rintro ⟨part, cause, ⟨before, after, rfl, earlier, fails⟩, rfl⟩
    refine ⟨⟨before.length, cause⟩, ⟨before.map (·.text), part.text, after.map (·.text), ?_, ?_, ?_,
      fails⟩, expressionError_eq rule before part after cause⟩
    · rw [List.map_append, List.map_cons]
    · exact List.forall_mem_map.2 earlier
    · rw [List.length_map, Nat.zero_add]

theorem exists_fragments_iff : (∃ parts, fragments rule bindings placeholder texts = .ok parts) ↔
    ∀ entry ∈ texts, bindings.get? entry.1 ≠ none := by
  constructor
  · rintro ⟨parts, filled⟩ entry mem unbound
    obtain ⟨part, -, -, template, found, -⟩ :=
      exists_of_mem_right (fragments_eq_ok_iff.1 filled).flip mem
    rw [unbound] at found
    cases found
  · intro bound
    cases filled : fragments rule bindings placeholder texts with
    | ok parts => exact ⟨parts, rfl⟩
    | error e =>
        obtain ⟨before, entry, after, rfl, -, unbound, -⟩ := fragments_eq_error_iff.1 filled
        exact absurd unbound (bound entry (by simp))

/-- A side is parsed fragment by fragment, and something is made of the parts. -/
def Reads (whole : List String → Except FragmentError β) (parse : String → Except ParseError α) :
    Prop :=
  ∃ make : List String → List α → β, ∀ fragments,
    whole fragments = (parseFragments parse 0 fragments).map (make fragments)

theorem reads_condition : Reads Condition.parse Expression.parse := ⟨_, fun _ => rfl⟩

theorem reads_consequence : Reads Consequence.parse Statement.parseAll := ⟨_, fun _ => rfl⟩

variable {whole : List String → Except FragmentError β}

theorem side_eq_error_iff (reads : Reads whole parse) (ascending : texts.Ascending)
    {e : TableError} : side rule bindings placeholder whole texts = .error e ↔
      SideFault rule bindings placeholder parse texts e := by
  obtain ⟨make, reads⟩ := reads
  simp only [side, Parser.bind_eq_error, fragments_eq_error_iff_unbound ascending, reads,
    parsed_eq_error_iff]
  constructor
  · rintro (⟨column, unbound, rfl⟩ | ⟨parts, filled, part, cause, failed, rfl⟩)
    · exact .unbound unbound
    · exact .malformed (exists_fragments_iff.1 ⟨parts, filled⟩)
        ((exists_malformed_iff ascending filled).1 failed)
  · rintro (@⟨column, unbound⟩ | @⟨column, fragment, cause, bound, malformed⟩)
    · exact .inl ⟨column, unbound, rfl⟩
    · obtain ⟨parts, filled⟩ := exists_fragments_iff.2 bound
      exact .inr ⟨parts, filled, ⟨column, fragment⟩, cause,
        (exists_malformed_iff ascending filled).2 malformed, rfl⟩

/-- A side compiles just when each of its texts makes a formula. -/
theorem exists_side_iff (rule : String) (reads : Reads whole parse)
    (ascending : texts.Ascending) :
    (∃ b, side rule bindings placeholder whole texts = .ok b) ↔
      Formed bindings placeholder parse texts := by
  constructor
  · rintro ⟨b, compiled⟩ entry mem
    obtain ⟨make, reads⟩ := reads
    obtain ⟨fragments, filled, read⟩ := (side_eq_ok_iff rule).1 compiled
    obtain ⟨fragment, memFragment, fills⟩ := exists_of_mem_right filled.flip mem
    rw [reads] at read
    obtain ⟨parts, parsed, -⟩ := Parser.map_eq_ok.1 read
    obtain ⟨part, -, read⟩ :=
      exists_of_mem_right (parseFragments_eq_ok_iff.1 parsed).flip memFragment
    exact ⟨fragment, part, fills, read⟩
  · intro formed
    cases compiled : side rule bindings placeholder whole texts with
    | ok b => exact ⟨b, rfl⟩
    | error e => exact absurd formed ((side_eq_error_iff reads ascending).1 compiled).not_formed

/-- Both sides of a record make formulas. -/
structure Sound (bindings : ColumnMap) (placeholder : String) (r : RuleRecord) : Prop where
  conditions : Formed bindings placeholder Expression.parse r.conditions
  consequences : Formed bindings placeholder Statement.parseAll r.consequences

/-- What is wrong with a record: its conditions, or else its consequences. -/
inductive RecordFault (bindings : ColumnMap) (placeholder name : String) (r : RuleRecord) :
    TableError → Prop where
  | condition {e : TableError}
      (fault : SideFault name bindings placeholder Expression.parse r.conditions e) :
      RecordFault bindings placeholder name r e
  | consequence {e : TableError}
      (formed : Formed bindings placeholder Expression.parse r.conditions)
      (fault : SideFault name bindings placeholder Statement.parseAll r.consequences e) :
      RecordFault bindings placeholder name r e

variable {syn : TableSyntax} {r : RuleRecord}

theorem record_eq_error_iff {name : String} (ascending : r.Ascending) {e : TableError} :
    record bindings syn name r = .error e ↔
      RecordFault bindings syn.placeholder name r e := by
  simp only [record, Parser.bind_eq_error,
    side_eq_error_iff reads_condition ascending.conditions,
    side_eq_error_iff reads_consequence ascending.consequences]
  constructor
  · rintro (fault | ⟨condition, read, fault | ⟨consequence, -, ⟨⟩⟩⟩)
    · exact .condition fault
    · exact .consequence
        ((exists_side_iff name reads_condition ascending.conditions).1 ⟨condition, read⟩) fault
  · rintro (fault | ⟨formed, fault⟩)
    · exact .inl fault
    · obtain ⟨condition, read⟩ :=
        (exists_side_iff name reads_condition ascending.conditions).2 formed
      exact .inr ⟨condition, read, .inl fault⟩

theorem exists_record_iff (name : String) (ascending : r.Ascending) :
    (∃ rule, record bindings syn name r = .ok rule) ↔ Sound bindings syn.placeholder r := by
  constructor
  · rintro ⟨rule, compiled⟩
    obtain ⟨condition, read, compiled⟩ := Parser.bind_eq_ok.1 compiled
    obtain ⟨consequence, read', -⟩ := Parser.bind_eq_ok.1 compiled
    exact ⟨(exists_side_iff name reads_condition ascending.conditions).1 ⟨condition, read⟩,
      (exists_side_iff name reads_consequence ascending.consequences).1 ⟨consequence, read'⟩⟩
  · rintro ⟨formed, formed'⟩
    obtain ⟨condition, read⟩ :=
      (exists_side_iff name reads_condition ascending.conditions).2 formed
    obtain ⟨consequence, read'⟩ :=
      (exists_side_iff name reads_consequence ascending.consequences).2 formed'
    exact ⟨⟨name, condition, consequence⟩, by rw [record, read, read']; rfl⟩

/-- What is wrong with records is what is wrong with the first that is not sound. -/
def FirstFault (bindings : ColumnMap) (placeholder : String) (entries : RuleRecords)
    (e : TableError) : Prop :=
  ∃ before entry after, entries = before ++ entry :: after ∧
    (∀ b ∈ before, Sound bindings placeholder b.2) ∧
    RecordFault bindings placeholder entry.1 entry.2 e

theorem records_eq_error_iff {entries : RuleRecords}
    (ascending : ∀ entry ∈ entries, entry.2.Ascending) {e : TableError} :
    records bindings syn entries = .error e ↔
      FirstFault bindings syn.placeholder entries e := by
  rw [FirstFault]
  induction entries with
  | nil => simp [records]
  | cons entry entries ih =>
      obtain ⟨first, others⟩ := List.forall_mem_cons.1 ascending
      rw [records, exists_first_cons_iff fun _ (entry : String × RuleRecord) =>
          RecordFault bindings syn.placeholder entry.1 entry.2 e,
        ← ih others, ← exists_record_iff entry.1 first, ← record_eq_error_iff first,
        Parser.bind_eq_error]
      refine or_congr_right ?_
      rw [← exists_and_right]
      refine exists_congr fun rule => and_congr_right fun _ => ?_
      simp [Parser.bind_eq_error, pure, Except.pure]

/-- A rule is made of the texts of a record: a term of each on the one side, and statements of each
    on the other. -/
structure Makes (bindings : ColumnMap) (placeholder name : String) (r : RuleRecord)
    (rule : CompiledRule) : Prop where
  name : rule.name = name
  condition : ∃ fragments, List.Forall₂ (Fills bindings placeholder) r.conditions fragments ∧
    List.Forall₂ (fun fragment term => Expression.parse fragment = .ok term)
      fragments rule.condition.terms ∧
    rule.condition.source = String.intercalate " && " fragments
  consequence : ∃ fragments parts,
    List.Forall₂ (Fills bindings placeholder) r.consequences fragments ∧
    List.Forall₂ (fun fragment part => Statement.parseAll fragment = .ok part) fragments parts ∧
    rule.consequence.statements = parts.flatten ∧
    rule.consequence.source = String.intercalate "\n" fragments

theorem record_eq_ok_iff_makes {name : String} {rule : CompiledRule} :
    record bindings syn name r = .ok rule ↔ Makes bindings syn.placeholder name r rule := by
  rw [record_eq_ok_iff]
  simp only [Condition.parse_eq_ok_iff, Consequence.parse_eq_ok_iff]
  constructor
  · rintro ⟨named, condition, fragments, filled, ⟨parts, read, statements⟩, source⟩
    exact ⟨named, condition, fragments, parts, filled, read, statements, source⟩
  · rintro ⟨named, condition, fragments, parts, filled, read, statements, source⟩
    exact ⟨named, condition, fragments, filled, ⟨parts, read, statements⟩, source⟩

/-- Records compile just when all of them are sound, to one rule for each record in their order. Or
    else the error is the first fault. -/
theorem records_outcome (bindings : ColumnMap) (syn : TableSyntax) (entries : RuleRecords)
    (ascending : ∀ entry ∈ entries, entry.2.Ascending) :
    ((∃ rules, records bindings syn entries = .ok rules) ↔
      ∀ entry ∈ entries, Sound bindings syn.placeholder entry.2) ∧
    (∀ rules, records bindings syn entries = .ok rules ↔
      List.Forall₂ (fun entry => Makes bindings syn.placeholder entry.1 entry.2) entries rules) ∧
    ∀ e, records bindings syn entries = .error e ↔
      FirstFault bindings syn.placeholder entries e := by
  have made (rules : RuleSet) : records bindings syn entries = .ok rules ↔
      List.Forall₂ (fun entry => Makes bindings syn.placeholder entry.1 entry.2) entries rules := by
    simp only [records_eq_ok_iff, record_eq_ok_iff_makes]
  refine ⟨⟨?_, fun sound => ?_⟩, made, fun e => records_eq_error_iff ascending⟩
  · rintro ⟨rules, compiled⟩ entry mem
    obtain ⟨rule, -, makes⟩ := exists_of_mem_right ((made rules).1 compiled).flip mem
    exact (exists_record_iff _ (ascending entry mem)).1 ⟨rule, record_eq_ok_iff_makes.2 makes⟩
  · cases compiled : records bindings syn entries with
    | ok rules => exact ⟨rules, rfl⟩
    | error e =>
        obtain ⟨before, entry, after, rfl, -, fault⟩ := (records_eq_error_iff ascending).1 compiled
        have mem : entry ∈ before ++ entry :: after := by simp
        obtain ⟨rule, failed⟩ := (exists_record_iff _ (ascending entry mem)).2 (sound entry mem)
        rw [(record_eq_error_iff (ascending entry mem)).2 fault] at failed
        cases failed

theorem records_outcome_unbound :
    let bindings : ColumnMap := [(1, "this.a == $value"), (4, "this.b = $value")]
    let entries : RuleRecords := [("one", ⟨[(1, "1")], [(4, "2")]⟩),
      ("two", ⟨[(1, "("), (2, "x"), (3, "y")], [(4, "(")]⟩), ("one", ⟨[(1, "(")], []⟩)]
    (∀ entry ∈ entries, entry.2.Ascending) ∧
      FirstFault bindings "$value" entries (.missingBinding "two" 2) := by
  intro bindings entries
  have ascending : ∀ entry ∈ entries, entry.2.Ascending := by
    simp only [entries, List.forall_mem_cons]
    exact ⟨⟨by decide, by decide⟩, ⟨by decide, by decide⟩, ⟨by decide, by decide⟩,
      List.forall_mem_nil _⟩
  have failed : records bindings {} entries = .error (.missingBinding "two" 2) := by
    decide +kernel
  exact ⟨ascending, ((records_outcome bindings {} entries ascending).2.2 _).1 failed⟩

-- The conditions come first, and on their side all columns have templates.
example :
    records [(1, "this.a == $value"), (2, "this.b == $value")] {}
      [("one", ⟨[(1, "1"), (2, ")")], [(3, "2")]⟩)] =
      .error (.expression "one" 2 "this.b == )" (.unexpected .closeParen .expression 10)) := by
  decide +kernel

end Compile

/-- A table does not compile when it has no layout, or when a record of it is at fault. -/
theorem Grid.compile_eq_error_iff (grid : Grid) (syn : TableSyntax) (e : TableError) :
    grid.compile syn = .error e ↔
      Layout.detect grid syn = .error e ∨
      ∃ layout rest, Layout.detect grid syn = .ok (layout, rest) ∧
        Compile.FirstFault layout.bindings syn.placeholder
          (RuleRecords.ofCells layout.gapColumn rest) e := by
  rw [compile, Parser.bind_eq_error]
  refine or_congr_right ⟨?_, ?_⟩
  · rintro ⟨⟨layout, rest⟩, detected, failed⟩
    exact ⟨layout, rest, detected,
      (Compile.records_eq_error_iff (RuleRecords.ascending_ofCells _ _)).1 failed⟩
  · rintro ⟨layout, rest, detected, fault⟩
    exact ⟨⟨layout, rest⟩, detected,
      (Compile.records_eq_error_iff (RuleRecords.ascending_ofCells _ _)).2 fault⟩

end DecisionTable
