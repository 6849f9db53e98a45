import DecisionTable.Proofs.Rule.Source

/-! # What the digest is taken of

The bytes of a rule set have a zero byte behind each field, and U+0000 is the character that is a
zero byte. In a source it may stand inside strings only, so a source that is cut off before one has
no tokens, and two sources end at the same place in the same text. A name may hold it anywhere. Then
a rule may be hidden in the name of the rule behind it (`encoding_merged`); otherwise the bytes
determine the names and the sources (`encoding_eq_iff`).
-/

namespace DecisionTable

/-- A text that has tokens has none with a zero character behind it. -/
theorem Lexer.tokens_zero {offset offset' : Nat} {text more : List Char} {located : List Located}
    (found : tokens offset text = .ok located) :
    ∀ others, tokens offset' (text ++ '\x00' :: more) ≠ .ok others := by
  intro others joined
  obtain ⟨shifted, found', -⟩ := spells_of_tokens found offset'
  rw [tokens_append found' (by simp; rfl)] at joined
  obtain ⟨behind, read, -⟩ := Parser.map_eq_ok.1 joined
  rw [tokens] at read
  split at read
  · cases read
  · rename_i scanned
    cases scanned

/-- Texts in front of a zero character are the same if neither goes on with one where the other
    ends. -/
theorem eq_of_append_zero {s t x y : List Char} (endS : ∀ more, t ≠ s ++ '\x00' :: more)
    (endT : ∀ more, s ≠ t ++ '\x00' :: more) (same : s ++ '\x00' :: x = t ++ '\x00' :: y) :
    s = t ∧ x = y := by
  rcases List.append_eq_append_iff.1 same with ⟨more, longer, tail⟩ | ⟨more, longer, tail⟩
  · cases more with
    | nil => simp_all
    | cons c more =>
        obtain rfl := (List.cons.inj tail).1
        exact absurd longer (endS more)
  · cases more with
    | nil => simp_all
    | cons c more =>
        obtain rfl := (List.cons.inj tail).1
        exact absurd longer (endT more)

theorem eq_of_name_zero {s t x y : List Char} (plainS : '\x00' ∉ s) (plainT : '\x00' ∉ t)
    (same : s ++ '\x00' :: x = t ++ '\x00' :: y) : s = t ∧ x = y :=
  eq_of_append_zero (fun more eq => plainT (by simp [eq])) (fun more eq => plainS (by simp [eq]))
    same

theorem eq_of_source_zero {s t : String} {x y : List Char} {located located' : List Located}
    (foundS : tokenize s = .ok located) (foundT : tokenize t = .ok located')
    (same : s.toList ++ '\x00' :: x = t.toList ++ '\x00' :: y) : s = t ∧ x = y := by
  obtain ⟨eq, behind⟩ := eq_of_append_zero
    (fun more eq => Lexer.tokens_zero foundS _ (by rwa [tokenize, eq] at foundT))
    (fun more eq => Lexer.tokens_zero foundT _ (by rwa [tokenize, eq] at foundS)) same
  exact ⟨String.toList_inj.1 eq, behind⟩

namespace CompiledRule

theorem Parsed.tokenize_condition {r : CompiledRule} (parsed : r.Parsed) :
    ∃ located, tokenize r.condition.source = .ok located := by
  obtain ⟨⟨_, condition⟩, -⟩ := parsed
  obtain ⟨_, found, -⟩ := Condition.told_source condition
  obtain ⟨located, tokenized, -⟩ := Parser.map_eq_ok.1 found
  exact ⟨located, tokenized⟩

theorem Parsed.tokenize_consequence {r : CompiledRule} (parsed : r.Parsed) :
    ∃ located, tokenize r.consequence.source = .ok located := by
  obtain ⟨-, _, consequence⟩ := parsed
  obtain ⟨located, tokenized, -⟩ := Parser.bind_eq_ok.1 (Consequence.parseAll_source consequence)
  exact ⟨located, tokenized⟩

/-- The fields of a rule, each with a zero character behind it. -/
def frames (r : CompiledRule) : List Char :=
  r.name.toList ++ '\x00' :: (r.condition.source.toList ++ '\x00' ::
    (r.consequence.source.toList ++ ['\x00']))

/-- Where a rule starts, its fields end where the zero characters say, whatever is behind. -/
theorem hashed_eq_of_frames {r s : CompiledRule} {x y : List Char} (parsedR : r.Parsed)
    (parsedS : s.Parsed) (plainR : '\x00' ∉ r.name.toList) (plainS : '\x00' ∉ s.name.toList)
    (same : r.frames ++ x = s.frames ++ y) : r.hashed = s.hashed ∧ x = y := by
  obtain ⟨_, conditionR⟩ := parsedR.tokenize_condition
  obtain ⟨_, conditionS⟩ := parsedS.tokenize_condition
  obtain ⟨_, consequenceR⟩ := parsedR.tokenize_consequence
  obtain ⟨_, consequenceS⟩ := parsedS.tokenize_consequence
  simp only [frames, List.append_assoc, List.cons_append, List.nil_append] at same
  obtain ⟨name, same⟩ := eq_of_name_zero plainR plainS same
  obtain ⟨condition, same⟩ := eq_of_source_zero conditionR conditionS same
  obtain ⟨consequence, behind⟩ := eq_of_source_zero consequenceR consequenceS same
  rw [hashed, hashed, String.toList_inj.1 name, condition, consequence]
  exact ⟨rfl, behind⟩

end CompiledRule

namespace RuleSet

theorem toList_byteArray (bytes : ByteArray) : bytes.toList = bytes.data.toList := by
  have onward : ∀ i done, ByteArray.toList.loop bytes i done =
      done.reverse ++ bytes.data.toList.drop i := by
    intro i done
    fun_induction ByteArray.toList.loop bytes i done with
    | case1 i done within ih =>
        have inside : i < bytes.data.toList.length := by
          rwa [Array.length_toList, ByteArray.size_data]
        have here : bytes.get! i = bytes.data.toList[i] := getElem!_pos bytes.data i within
        rw [ih, List.reverse_cons, List.append_assoc, List.singleton_append, here,
          ← List.drop_eq_getElem_cons inside]
    | case2 i done past =>
        have outside : bytes.data.toList.length ≤ i := by
          rw [Array.length_toList, ByteArray.size_data]
          exact Nat.le_of_not_lt past
        rw [List.drop_eq_nil_of_le outside, List.append_nil]
  exact onward 0 []

/-- The bytes of a text that is followed by a zero character. -/
theorem terminated_eq (text : String) :
    terminated text = (text ++ "\x00").toByteArray.data.toList := by
  rw [terminated, String.toUTF8_eq_toByteArray, toList_byteArray, String.toByteArray_append,
    ByteArray.toList_data_append]
  rfl

/-- The bytes are those of a text, in which the zero characters stand behind the fields. -/
theorem encoding_eq_frames (rules : RuleSet) :
    encoding rules =
      (String.ofList (rules.flatMap CompiledRule.frames)).toByteArray.data.toList := by
  induction rules with
  | nil => rfl
  | cons r rules ih =>
      have fields : String.ofList ((r :: rules).flatMap CompiledRule.frames) =
          (r.name ++ "\x00") ++ (r.condition.source ++ "\x00") ++
            (r.consequence.source ++ "\x00") ++
            String.ofList (rules.flatMap CompiledRule.frames) :=
        String.toList_inj.1 (by simp [CompiledRule.frames])
      rw [fields, String.toByteArray_append, ByteArray.toList_data_append, ← ih]
      simp only [encoding, List.flatMap_cons, terminated_eq, String.toByteArray_append,
        ByteArray.toList_data_append]

theorem encoding_eq_iff_frames {rules rules' : RuleSet} : encoding rules = encoding rules' ↔
    rules.flatMap CompiledRule.frames = rules'.flatMap CompiledRule.frames := by
  rw [encoding_eq_frames, encoding_eq_frames]
  constructor
  · intro same
    have bytes := ByteArray.ext (Array.toList_inj.1 same)
    exact String.ofList_injective (String.toByteArray_inj.1 bytes)
  · intro same
    rw [same]

/-- Rules without U+0000 in their names are encoded alike if they have the same names and sources,
    one by one. -/
theorem encoding_eq_iff {rules rules' : RuleSet} (parsed : ∀ r ∈ rules, r.Parsed)
    (parsed' : ∀ r ∈ rules', r.Parsed) (plain : ∀ r ∈ rules, '\x00' ∉ r.name.toList)
    (plain' : ∀ r ∈ rules', '\x00' ∉ r.name.toList) :
    encoding rules = encoding rules' ↔
      rules.map CompiledRule.hashed = rules'.map CompiledRule.hashed := by
  refine ⟨fun same => ?_, encoding_eq_of_hashed⟩
  rw [encoding_eq_iff_frames] at same
  induction rules generalizing rules' with
  | nil =>
      cases rules' with
      | nil => rfl
      | cons s rules' => simp [CompiledRule.frames] at same
  | cons r rules ih =>
      cases rules' with
      | nil => simp [CompiledRule.frames] at same
      | cons s rules' =>
          simp only [List.mem_cons, forall_eq_or_imp] at parsed parsed' plain plain'
          simp only [List.flatMap_cons] at same
          obtain ⟨first, behind⟩ :=
            CompiledRule.hashed_eq_of_frames parsed.1 parsed'.1 plain.1 plain'.1 same
          rw [List.map_cons, List.map_cons, first, ih parsed.2 parsed'.2 plain.2 plain'.2 behind]

/-- Strings in sources may have U+0000. -/
theorem encoding_eq_iff_zero_string :
    ∃ r s, CompiledRule.parse "r" ["this.a == '\x00'"] ["this.b = ''"] = .ok r ∧
      CompiledRule.parse "r" ["this.a == ''"] ["this.b = '\x00'"] = .ok s ∧
      encoding [r] ≠ encoding [s] := by
  have parsedR : CompiledRule.parse "r" ["this.a == '\x00'"] ["this.b = ''"] =
      .ok ⟨"r", ⟨"this.a == '\x00'",
        [.infixed .equal (.field ⟨"a", []⟩) (.literal (.string "\x00"))]⟩,
        ⟨"this.b = ''", [.assign ⟨"b", []⟩ (.literal (.string ""))]⟩⟩ :=
    Parser.toOption_eq_some.1 (by decide +kernel)
  have parsedS : CompiledRule.parse "r" ["this.a == ''"] ["this.b = '\x00'"] =
      .ok ⟨"r", ⟨"this.a == ''",
        [.infixed .equal (.field ⟨"a", []⟩) (.literal (.string ""))]⟩,
        ⟨"this.b = '\x00'", [.assign ⟨"b", []⟩ (.literal (.string "\x00"))]⟩⟩ :=
    Parser.toOption_eq_some.1 (by decide +kernel)
  refine ⟨_, _, parsedR, parsedS, fun same => ?_⟩
  have := (encoding_eq_iff (List.forall_mem_singleton.2 (CompiledRule.parsed_of_parse parsedR))
    (List.forall_mem_singleton.2 (CompiledRule.parsed_of_parse parsedS))
    (List.forall_mem_singleton.2 (by decide)) (List.forall_mem_singleton.2 (by decide))).1 same
  simp [CompiledRule.hashed] at this

/-- Two rules are encoded as one, whose name holds all of the first rule. -/
theorem encoding_merged (name source source' : String) (r : CompiledRule) (terms : List Expression)
    (statements : List Statement) :
    encoding [⟨name, ⟨source, terms⟩, ⟨source', statements⟩⟩, r] =
      encoding [{ r with
        name := name ++ "\x00" ++ source ++ "\x00" ++ source' ++ "\x00" ++ r.name }] :=
  encoding_eq_iff_frames.2 (by simp [CompiledRule.frames])

theorem encoding_eq_merged :
    ∃ r s t, CompiledRule.parse "a" ["true"] ["this.x = 1"] = .ok r ∧
      CompiledRule.parse "b" ["true"] ["this.x = 1"] = .ok s ∧
      CompiledRule.parse "a\x00true\x00this.x = 1\x00b" ["true"] ["this.x = 1"] = .ok t ∧
      encoding [r, s] = encoding [t] := by
  have parsed : ∀ name, CompiledRule.parse name ["true"] ["this.x = 1"] =
      .ok ⟨name, ⟨"true", [.literal (.bool true)]⟩,
        ⟨"this.x = 1", [.assign ⟨"x", []⟩ (.literal (.number (.integer 1 (by decide))))]⟩⟩ := by
    intro name
    have condition : Condition.parse ["true"] = .ok ⟨"true", [.literal (.bool true)]⟩ :=
      Parser.toOption_eq_some.1 (by decide +kernel)
    have consequence : Consequence.parse ["this.x = 1"] = .ok ⟨"this.x = 1",
        [.assign ⟨"x", []⟩ (.literal (.number (.integer 1 (by decide))))]⟩ :=
      Parser.toOption_eq_some.1 (by decide +kernel)
    rw [CompiledRule.parse, condition, consequence]
    rfl
  exact ⟨_, _, _, parsed _, parsed _, parsed _, encoding_merged ..⟩

end RuleSet

end DecisionTable
