import DecisionTable.Proofs.Sheet.Fragments
import DecisionTable.Proofs.Sheet.Rows

/-! # What a table compiles to

A table compiles to one rule for each name among the leftmost cells below the row of templates,
in the order in which the names first appear. The rule of a name is made from the last row of
that name: each cell right of the leftmost one gives one fragment, on the side of the gap where
it stands. Nothing else below the templates has a part in it.
-/

namespace DecisionTable

/-- A rule is built from the cells behind its name: those left of the gap are its terms, and the
    others its statements. -/
structure Layout.Builds (layout : Layout) (placeholder : String) (cells : List Cell)
    (r : CompiledRule) : Prop where
  ascending : cells.Pairwise fun a b => a.position.column < b.position.column
  condition : ∃ fragments,
    List.Forall₂ (fun c fragment => Compile.Fills layout.bindings placeholder
        (c.position.column, c.value.render) fragment)
      (cells.filter (·.position.column < layout.gapColumn)) fragments ∧
    List.Forall₂ (fun fragment term => Expression.parse fragment = .ok term)
      fragments r.condition.terms ∧
    r.condition.source = String.intercalate " && " fragments
  consequence : ∃ fragments parts,
    List.Forall₂ (fun c fragment => Compile.Fills layout.bindings placeholder
        (c.position.column, consequenceText c.value) fragment)
      (cells.filter (layout.gapColumn ≤ ·.position.column)) fragments ∧
    List.Forall₂ (fun fragment part => Statement.parseAll fragment = .ok part) fragments parts ∧
    r.consequence.statements = parts.flatten ∧
    r.consequence.source = String.intercalate "\n" fragments

/-- What rows of cells come to: one rule for each name, in the order of the names, and built from
    the last row of its name. -/
structure Layout.Yields (layout : Layout) (placeholder : String) (cells : List Cell)
    (rules : RuleSet) : Prop where
  distinct : rules.names.Nodup
  names : rules.names = ((cells.filter (·.isLeftmost cells)).map (·.value.render)).eraseDups
  made : ∀ r ∈ rules, ∃ label, LastLabel cells r.name label ∧
    layout.Builds placeholder (label.rightOf cells) r

theorem LastLabel.unique {cells : List Cell} (ordered : Cell.Ordered cells) {name : String}
    {label label' : Cell} (last : LastLabel cells name label)
    (last' : LastLabel cells name label') : label = label' := by
  have row : label.position.row = label'.position.row := UInt32.le_antisymm
    (last'.last label last.mem last.leftmost last.reads)
    (last.last label' last'.mem last'.leftmost last'.reads)
  have column : label.position.column = label'.position.column := UInt32.le_antisymm
    (Cell.isLeftmost_iff.1 last.leftmost label' last'.mem row.symm)
    (Cell.isLeftmost_iff.1 last'.leftmost label last.mem row)
  exact ordered.unique last.mem last'.mem (congrArg₂ Position.mk row column)

namespace Compile

theorem record_ofLabel_iff {layout : Layout} {syn : TableSyntax} {cells : List Cell}
    (ordered : Cell.Ordered cells) {label : Cell} {name : String} {r : CompiledRule} :
    record layout.bindings syn name (.ofLabel layout.gapColumn cells label) = .ok r ↔
      r.name = name ∧ layout.Builds syn.placeholder (label.rightOf cells) r := by
  rw [record_eq_ok_iff]
  simp only [RuleRecord.ofLabel, ColumnMap.ofRow, List.forall₂_map_left_iff,
    Condition.parse_eq_ok_iff, Consequence.parse_eq_ok_iff]
  refine and_congr_right fun _ => ⟨?_, ?_⟩
  · rintro ⟨condition, fragments, filled, ⟨parts, read, statements⟩, source⟩
    exact ⟨ordered.columns_rightOf label, condition,
      fragments, parts, filled, read, statements, source⟩
  · rintro ⟨-, condition, fragments, parts, filled, read, statements, source⟩
    exact ⟨condition, fragments, filled, ⟨parts, read, statements⟩, source⟩

theorem names_eq_iff {entries : RuleRecords} {rules : RuleSet} :
    entries.map Prod.fst = rules.names ↔
      List.Forall₂ (fun entry rule => entry.1 = rule.name) entries rules := by
  rw [RuleSet.names, ← List.forall₂_eq_eq_eq, List.forall₂_map_left_iff,
    List.forall₂_map_right_iff]

theorem records_ofCells_iff {layout : Layout} {syn : TableSyntax} {cells : List Cell}
    (ordered : Cell.Ordered cells) {rules : RuleSet} :
    records layout.bindings syn (RuleRecords.ofCells layout.gapColumn cells) = .ok rules ↔
      layout.Yields syn.placeholder cells rules := by
  have recorded (e : String × RuleRecord) :
      e ∈ RuleRecords.ofCells layout.gapColumn cells ↔ ∃ label, LastLabel cells e.1 label ∧
        e.2 = .ofLabel layout.gapColumn cells label :=
    RuleRecords.mem_ofCells_iff layout.gapColumn ordered
  have names := RuleRecords.names_ofCells layout.gapColumn ordered
  rw [records_eq_ok_iff]
  constructor
  · intro compiled
    have same := names_eq_iff.2 (compiled.imp fun e r made => (record_eq_ok_iff.1 made).1.symm)
    refine ⟨?_, same.symm.trans names, fun r mem => ?_⟩
    · rw [← same, names]
      exact nodup_eraseDups _
    · obtain ⟨e, memE, made⟩ := exists_of_mem_right compiled mem
      obtain ⟨label, last, texts⟩ := (recorded e).1 memE
      rw [texts, record_ofLabel_iff ordered] at made
      exact ⟨label, made.1 ▸ last, made.2⟩
  · rintro ⟨-, same, made⟩
    obtain ⟨length, paired⟩ := List.forall₂_iff_zip.1 (names_eq_iff.1 (names.trans same.symm))
    refine List.forall₂_iff_zip.2 ⟨length, fun {e r} mem => ?_⟩
    obtain ⟨memE, memR⟩ := List.of_mem_zip mem
    have name : e.1 = r.name := paired mem
    obtain ⟨label, last, builds⟩ := made r memR
    obtain ⟨label', last', texts⟩ := (recorded e).1 memE
    obtain rfl := last.unique ordered (name ▸ last')
    rw [texts]
    exact (record_ofLabel_iff ordered).2 ⟨name.symm, builds⟩

end Compile

/-- A table compiles just when a layout is found and the rows below the marker yield rules, and it
    compiles to these. The templates are the cells right of the marker. -/
theorem Grid.compile_eq_ok_iff (extent : Extent) (cells : List Cell) (syn : TableSyntax)
    (rules : RuleSet) :
    (ofExtent extent cells).compile syn = .ok rules ↔
      ∃ layout rest marker, Layout.detect (ofExtent extent cells) syn = .ok (layout, rest) ∧
        marker ∈ (ofExtent extent cells).cells ∧ marker.value.render = syn.marker ∧
        marker.position.row = layout.bindingRow ∧
        layout.bindings =
          ColumnMap.ofRow CellValue.render (marker.rightOf (ofExtent extent cells).cells) ∧
        layout.Yields syn.placeholder
          (Cell.below layout.bindingRow (ofExtent extent cells).cells) rules := by
  have ordered := ordered_ofExtent extent cells
  rw [compile, Parser.bind_eq_ok]
  constructor
  · rintro ⟨⟨layout, rest⟩, detected, compiled⟩
    obtain ⟨marker, mem, reads, row, templates, rfl⟩ := Layout.detect_eq_ok ordered detected
    exact ⟨layout, _, marker, detected, mem, reads, row, templates,
      (Compile.records_ofCells_iff (ordered.filter _)).1 compiled⟩
  · rintro ⟨layout, rest, -, detected, -, -, -, -, yields⟩
    obtain ⟨-, -, -, -, -, rfl⟩ := Layout.detect_eq_ok ordered detected
    exact ⟨⟨layout, _⟩, detected, (Compile.records_ofCells_iff (ordered.filter _)).2 yields⟩

-- A later row takes the place of an earlier one of its name, a row may be a name alone, and text
-- for a truth value is one on the right side only.
example :
    ((Grid.ofExtent ⟨⟨0, 0⟩, ⟨4, 4⟩⟩
      [⟨⟨4, 0⟩, .text "first"⟩, ⟨⟨4, 2⟩, .text "TRUE"⟩, ⟨⟨4, 3⟩, .text "FALSE"⟩,
        ⟨⟨4, 4⟩, .text "2"⟩, ⟨⟨0, 1⟩, .text "a"⟩, ⟨⟨0, 2⟩, .text "b"⟩, ⟨⟨0, 4⟩, .text "y"⟩,
        ⟨⟨1, 0⟩, .text "BINDING"⟩, ⟨⟨1, 1⟩, .text "this.a == $value"⟩,
        ⟨⟨1, 2⟩, .text "this.b == '$value'"⟩, ⟨⟨1, 3⟩, .text "this.x = $value"⟩,
        ⟨⟨1, 4⟩, .text "this.y = $value"⟩, ⟨⟨2, 0⟩, .text "first"⟩, ⟨⟨2, 1⟩, .bool true⟩,
        ⟨⟨3, 1⟩, .text "second"⟩]).compile {}).toOption.map
      (List.map fun r => (r.name, r.condition.source, r.consequence.source)) =
    some [("first", "this.b == 'TRUE'", "this.x = false\nthis.y = 2"), ("second", "", "")] := by
  decide +kernel

end DecisionTable
