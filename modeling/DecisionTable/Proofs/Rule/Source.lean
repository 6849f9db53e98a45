import DecisionTable.Proofs.Formula.Conjunction
import DecisionTable.Proofs.Formula.Joining
import DecisionTable.Chaining.Run
import DecisionTable.Rule.Set

/-! # What sources say about rules

The digest of a rule set covers the names and the sources of its rules, so two sets with equal
sources look the same from outside. The source of a consequence determines its statements, for
parsing takes separators to the joining of lists (`Statement.parseAll_separated`).
The source of a condition determines what holds, if it does not have both an `||` and an `&&`
outside parentheses: without an `||` it is a conjunction, whatever its parts are, and without
an `&&` it is one part. With both the parts are lost (`allHold_regrouped`).
-/

namespace DecisionTable

open Grammar

/-- One fragment was parsed as one part, wherever it stands. -/
theorem parseFragments_cons {α : Type} {parse : String → Except ParseError α} {index : Nat}
    {fragment : String} {fragments : List String} {parts : List α}
    (h : parseFragments parse index (fragment :: fragments) = .ok parts) :
    ∃ part others, parse fragment = .ok part ∧
      parseFragments parse (index + 1) fragments = .ok others ∧ parts = part :: others := by
  rw [parseFragments] at h
  split at h
  · cases h
  · rename_i part found
    obtain ⟨others, read, rfl⟩ := Parser.map_eq_ok.1 h
    exact ⟨part, others, found, read, rfl⟩

namespace Consequence

theorem parseAll_intercalate {index : Nat} {fragments : List String}
    {parts : List (List Statement)}
    (h : parseFragments Statement.parseAll index fragments = .ok parts) :
    Statement.parseAll (String.intercalate "\n" fragments) = .ok parts.flatten := by
  induction fragments generalizing index parts with
  | nil =>
      cases h
      have blank : tokenize "" = .ok [] := by rw [tokenize, String.toList_empty, Lexer.tokens]
      rw [String.intercalate_nil]
      exact Parser.bind_eq_ok.2 ⟨[], blank, Parser.statements_nil⟩
  | cons fragment fragments ih =>
      obtain ⟨part, others, read, readOthers, rfl⟩ := parseFragments_cons h
      cases fragments with
      | nil =>
          cases readOthers
          simpa using read
      | cons next fragments =>
          rw [String.intercalate_cons_cons]
          exact (Statement.parseAll_join_iff (c := '\n') (t := .newline) List.mem_cons_self read).2
            ⟨_, ih readOthers, rfl⟩

/-- A consequence is what its source says. -/
theorem parseAll_source {fragments : List String} {c : Consequence}
    (h : parse fragments = .ok c) : Statement.parseAll c.source = .ok c.statements := by
  obtain ⟨parts, read, rfl⟩ := Parser.map_eq_ok.1 h
  exact parseAll_intercalate read

end Consequence

namespace Statement

/-- Parsing takes a separator between texts to the joining of their statements: behind a text that
    is a list of statements the whole is one just when the text behind is one. So a consequence
    has the statements of its source. -/
theorem parseAll_separated :
    (∀ (a b : String) (c : Char) (front list : List Statement), c = ';' ∨ c = '\n' →
      parseAll a = .ok front →
      (parseAll (a ++ String.singleton c ++ b) = .ok list ↔
        ∃ behind, parseAll b = .ok behind ∧ list = front ++ behind)) ∧
    ∀ (fragments : List String) (c : Consequence), Consequence.parse fragments = .ok c →
      parseAll c.source = .ok c.statements := by
  refine ⟨fun a b c front list separates read => ?_, fun fragments c => Consequence.parseAll_source⟩
  rcases separates with rfl | rfl
  · exact parseAll_join_iff (t := .semicolon) (by simp [Lexer.separators]) read
  · exact parseAll_join_iff (t := .newline) (by simp [Lexer.separators]) read

theorem parseAll_separated_assignments :
    let set (name : String) (value : Bool) : Statement :=
      .assign ⟨name, []⟩ (.literal (.bool value))
    parseAll "this.a = true" = .ok [set "a" true] ∧
      parseAll "b = false" = .ok [set "b" false] ∧
      parseAll ("this.a = true" ++ ";" ++ "b = false") = .ok [set "a" true, set "b" false] ∧
      (∀ list, parseAll ("this.a = true" ++ "\n" ++ "1 = 2") ≠ .ok list) ∧
      ∃ c, Consequence.parse ["this.a = true;", "", "b = false"] = .ok c ∧
        parseAll c.source = .ok c.statements := by
  intro set
  have readA : parseAll "this.a = true" = .ok [set "a" true] :=
    Parser.toOption_eq_some.1 (by decide +kernel)
  have readB : parseAll "b = false" = .ok [set "b" false] :=
    Parser.toOption_eq_some.1 (by decide +kernel)
  have wrong : (parseAll "1 = 2").toOption = none := by decide +kernel
  have parsed : Consequence.parse ["this.a = true;", "", "b = false"] =
      .ok ⟨"this.a = true;\n\nb = false", [set "a" true, set "b" false]⟩ :=
    Parser.toOption_eq_some.1 (by decide +kernel)
  refine ⟨readA, readB, ?_, fun list joined => ?_, _, parsed, parseAll_separated.2 _ _ parsed⟩
  · exact (parseAll_separated.1 _ _ ';' _ _ (.inl rfl) readA).2 ⟨_, readB, rfl⟩
  · obtain ⟨behind, read, -⟩ := (parseAll_separated.1 _ _ '\n' _ _ (.inr rfl) readA).1 joined
    rw [Parser.toOption_eq_some.2 read] at wrong
    cases wrong

end Statement

namespace Condition

/-- The tokens of a text that count in an expression. -/
def tokens (text : String) : Except ParseError (List Token) :=
  (tokenize text).map Expression.significant

/-- Whether the source has both an `||` and an `&&` outside parentheses. -/
def mixed (c : Condition) : Bool :=
  match tokens c.source with
  | .ok ts => outside .or 0 ts && outside .and 0 ts
  | .error _ => false

/-- The terms are told by the tokens, if these do not have both operators outside parentheses. -/
structure Told (ts : List Token) (terms : List Expression) : Prop where
  conjunction : outside .or 0 ts = false → Says 2 Expression.conjuncts ts terms
  single : outside .and 0 ts = false → Says 1 (fun e => [e]) ts terms

theorem tokens_of_parse {text : String} {e : Expression} (h : Expression.parse text = .ok e) :
    ∃ ts, tokens text = .ok ts ∧ Derives 1 ts e := by
  obtain ⟨located, found, read⟩ := Parser.bind_eq_ok.1 h
  exact ⟨_, Parser.map_eq_ok.2 ⟨located, found, rfl⟩, Expression.ofTokens_sound read⟩

theorem tokens_join {front behind : String} {ts us : List Token} (found : tokens front = .ok ts)
    (foundBehind : tokens behind = .ok us) :
    tokens (front ++ " && " ++ behind) = .ok (ts ++ .operator .and :: us) := by
  obtain ⟨first, tokenized, rfl⟩ := Parser.map_eq_ok.1 found
  obtain ⟨second, tokenizedBehind, rfl⟩ := Parser.map_eq_ok.1 foundBehind
  have operator : Lexer.Spells (' ' :: '&' :: '&' :: ' ' :: behind.toList)
      (.operator .and :: second.map Located.token) :=
    (((Lexer.spells_of_tokens tokenizedBehind).blank rfl).token rfl).blank rfl
  have text : (front ++ " && " ++ behind).toList =
      front.toList ++ ' ' :: '&' :: '&' :: ' ' :: behind.toList := by simp
  obtain ⟨located, joined, spelled⟩ :=
    (Lexer.spells_of_tokens tokenized).append (by simp [Lexer.ends, Lexer.isWordRest]) operator 0
  refine Parser.map_eq_ok.2 ⟨located, by rw [tokenize, text, joined], ?_⟩
  rw [Expression.significant, spelled, List.filter_append, List.filter_cons]
  rfl

theorem told_of_derives {ts : List Token} {e : Expression} (d : Derives 1 ts e) :
    Told ts [e] where
  conjunction closed := .one (d.conjunction closed) Expression.conjuncts
  single _ := .one d fun e => [e]

theorem Told.cons {front behind : List Token} {term : Expression} {terms : List Expression}
    (told : Told behind terms) (d : Derives 1 front term) (some : behind ≠ []) :
    Told (front ++ .operator .and :: behind) (term :: terms) where
  conjunction closed := by
    rw [d.outside_append, outside_operator (.inl (by decide)), Bool.or_eq_false_iff] at closed
    exact .and (d.conjunction closed.1) (told.conjunction closed.2) some
  single closed := by
    rw [d.outside_append] at closed
    simp [outside] at closed

theorem told_intercalate {index : Nat} {fragment : String} {fragments : List String}
    {terms : List Expression}
    (h : parseFragments Expression.parse index (fragment :: fragments) = .ok terms) :
    ∃ ts, tokens (String.intercalate " && " (fragment :: fragments)) = .ok ts ∧ ts ≠ [] ∧
      Told ts terms := by
  induction fragments generalizing index fragment terms with
  | nil =>
      obtain ⟨term, others, read, readOthers, rfl⟩ := parseFragments_cons h
      cases readOthers
      obtain ⟨ts, found, d⟩ := tokens_of_parse read
      exact ⟨ts, by rwa [String.intercalate_singleton], d.ne_nil, told_of_derives d⟩
  | cons next fragments ih =>
      obtain ⟨term, others, read, readOthers, rfl⟩ := parseFragments_cons h
      obtain ⟨ts, found, d⟩ := tokens_of_parse read
      obtain ⟨us, foundOthers, some, told⟩ := ih readOthers
      refine ⟨ts ++ .operator .and :: us, ?_, by simp, told.cons d some⟩
      rw [String.intercalate_cons_cons, tokens_join found foundOthers]

/-- The source of a condition tells its terms, as far as it can. -/
theorem told_source {fragments : List String} {c : Condition} (h : parse fragments = .ok c) :
    ∃ ts, tokens c.source = .ok ts ∧ Told ts c.terms := by
  obtain ⟨terms, read, rfl⟩ := Parser.map_eq_ok.1 h
  match fragments with
  | [] =>
      cases read
      refine ⟨[], Parser.map_eq_ok.2 ⟨[], ?_, rfl⟩, ?_⟩
      · rw [String.intercalate_nil, tokenize, String.toList_empty, Lexer.tokens]
      · exact ⟨fun _ => .inl ⟨rfl, rfl⟩, fun _ => .inl ⟨rfl, rfl⟩⟩
  | fragment :: fragments =>
      obtain ⟨ts, found, -, told⟩ := told_intercalate read
      exact ⟨ts, found, told⟩

/-- Conditions with one source hold alike, if it does not have both an `||` and an `&&` outside
    parentheses. -/
theorem holds_eq_of_source {fragments fragments' : List String} {c d : Condition}
    (parsedC : parse fragments = .ok c) (parsedD : parse fragments' = .ok d)
    (same : c.source = d.source) (clear : c.mixed = false) (fact : Fact) :
    c.holds fact = d.holds fact := by
  obtain ⟨ts, found, toldC⟩ := told_source parsedC
  obtain ⟨us, foundD, toldD⟩ := told_source parsedD
  rw [← same, found] at foundD
  cases foundD
  rw [mixed, found] at clear
  rcases Bool.and_eq_false_iff.1 clear with closed | closed
  · rw [holds, holds, ← allHold_flatMap_conjuncts,
      (toldC.conjunction closed).unique (toldD.conjunction closed), allHold_flatMap_conjuncts]
  · have terms := (toldC.single closed).unique (toldD.single closed)
    simp only [List.flatMap_singleton'] at terms
    rw [holds, holds, terms]

/-- Two disjuncts and a term behind them: if the `||` takes in the term, the condition differs
    just where the first disjunct holds and the term does not. -/
theorem allHold_regrouped (fact : Fact) (a b c : Expression) :
    allHold fact [.infixed .or a b, c] ≠ allHold fact [.infixed .or a (.infixed .and b c)] ↔
      a.holds fact = .ok true ∧ c.holds fact ≠ .ok true := by
  simp only [allHold, Expression.holds_or, Expression.holds_and]
  cases a.holds fact with
  | error e => simp [bind, Except.bind]
  | ok held =>
      cases held with
      | false =>
          cases b.holds fact with
          | error e => simp [bind, Except.bind]
          | ok held => cases held <;> cases c.holds fact <;> simp [bind, Except.bind]
      | true =>
          cases c.holds fact with
          | error e => simp [bind, Except.bind]
          | ok held => cases held <;> simp [bind, Except.bind]

end Condition

namespace CompiledRule

/-- What the digest covers of a rule. -/
def hashed (r : CompiledRule) : String × String × String :=
  (r.name, r.condition.source, r.consequence.source)

/-- Both parts of the rule come from fragments. -/
def Parsed (r : CompiledRule) : Prop :=
  (∃ fragments, Condition.parse fragments = .ok r.condition) ∧
    ∃ fragments, Consequence.parse fragments = .ok r.consequence

theorem parsed_of_parse {name : String} {conditions consequences : List String}
    {r : CompiledRule} (h : parse name conditions consequences = .ok r) : r.Parsed := by
  obtain ⟨condition, readCondition, h⟩ := Parser.bind_eq_ok.1 h
  obtain ⟨consequence, readConsequence, h⟩ := Parser.bind_eq_ok.1 h
  cases h
  exact ⟨⟨_, readCondition⟩, ⟨_, readConsequence⟩⟩

theorem toRule_eq_of_hashed {r s : CompiledRule} (parsedR : r.Parsed) (parsedS : s.Parsed)
    (same : r.hashed = s.hashed)
    (kept : r.condition.mixed = true → r.condition.terms = s.condition.terms) :
    r.toRule = s.toRule := by
  obtain ⟨⟨_, conditionR⟩, _, consequenceR⟩ := parsedR
  obtain ⟨⟨_, conditionS⟩, _, consequenceS⟩ := parsedS
  simp only [hashed, Prod.mk.injEq] at same
  obtain ⟨name, condition, consequence⟩ := same
  have holds : r.condition.holds = s.condition.holds := by
    cases clear : r.condition.mixed with
    | true =>
        funext fact
        rw [Condition.holds, Condition.holds, kept clear]
    | false =>
        funext fact
        exact Condition.holds_eq_of_source conditionR conditionS condition clear fact
  have statements : r.consequence.statements = s.consequence.statements := by
    have := Consequence.parseAll_source consequenceR
    rw [consequence, Consequence.parseAll_source consequenceS] at this
    exact (Except.ok.inj this).symm
  simp only [toRule, Consequence.apply, name, holds, statements]

end CompiledRule

namespace RuleSet

theorem encoding_eq_of_hashed {rules rules' : RuleSet}
    (same : rules.map CompiledRule.hashed = rules'.map CompiledRule.hashed) :
    encoding rules = encoding rules' := by
  have covered : ∀ rules : RuleSet, encoding rules = (rules.map CompiledRule.hashed).flatMap
      fun (name, condition, consequence) =>
        terminated name ++ terminated condition ++ terminated consequence := fun rules => by
    rw [List.flatMap_map]
    rfl
  rw [covered, covered, same]

theorem fingerprint_eq_of_hashed {rules rules' : RuleSet}
    (same : rules.map CompiledRule.hashed = rules'.map CompiledRule.hashed) :
    fingerprint rules = fingerprint rules' := by
  rw [fingerprint, fingerprint, encoding_eq_of_hashed same]

/-- Rules that the digest cannot tell apart run alike, with the same result or the same error, if
    no condition's source has both an `||` and an `&&` outside parentheses. Where one has, the
    rules must agree on how its terms are cut out of the source. -/
theorem run_eq_of_hashed {rules rules' : RuleSet} (parsed : ∀ r ∈ rules, r.Parsed)
    (parsed' : ∀ r ∈ rules', r.Parsed)
    (same : rules.map CompiledRule.hashed = rules'.map CompiledRule.hashed)
    (kept : ∀ p ∈ rules.zip rules', p.1.condition.mixed = true →
      p.1.condition.terms = p.2.condition.terms)
    (settings : EngineSettings) (fact : Fact) :
    Chain.run settings (rules.map CompiledRule.toRule) fact =
      Chain.run settings (rules'.map CompiledRule.toRule) fact := by
  have alike : rules.map CompiledRule.toRule = rules'.map CompiledRule.toRule := by
    induction rules generalizing rules' with
    | nil =>
        obtain rfl := List.map_eq_nil_iff.1 same.symm
        rfl
    | cons r rules ih =>
        obtain ⟨s, others, rfl, eq, sameOthers⟩ := List.map_eq_cons_iff.1 same.symm
        simp only [List.mem_cons, forall_eq_or_imp, List.zip_cons_cons] at parsed parsed' kept
        rw [List.map_cons, List.map_cons, ih parsed.2 parsed'.2 sameOthers.symm kept.2,
          CompiledRule.toRule_eq_of_hashed parsed.1 parsed'.1 eq.symm kept.1]
  rw [alike]

theorem run_eq_of_hashed_conjunction :
    ∃ r s, CompiledRule.parse "r" ["this.a && this.b", "this.c"] ["this.hit = true"] = .ok r ∧
      CompiledRule.parse "r" ["this.a", "this.b && this.c"] ["this.hit = true"] = .ok s ∧
      r.condition.terms ≠ s.condition.terms ∧ ∀ settings fact,
        Chain.run settings [r.toRule] fact = Chain.run settings [s.toRule] fact := by
  have parsedR : CompiledRule.parse "r" ["this.a && this.b", "this.c"] ["this.hit = true"] =
      .ok ⟨"r", ⟨"this.a && this.b && this.c",
        [.infixed .and (.field ⟨"a", []⟩) (.field ⟨"b", []⟩), .field ⟨"c", []⟩]⟩,
        ⟨"this.hit = true", [.assign ⟨"hit", []⟩ (.literal (.bool true))]⟩⟩ :=
    Parser.toOption_eq_some.1 (by decide +kernel)
  have parsedS : CompiledRule.parse "r" ["this.a", "this.b && this.c"] ["this.hit = true"] =
      .ok ⟨"r", ⟨"this.a && this.b && this.c",
        [.field ⟨"a", []⟩, .infixed .and (.field ⟨"b", []⟩) (.field ⟨"c", []⟩)]⟩,
        ⟨"this.hit = true", [.assign ⟨"hit", []⟩ (.literal (.bool true))]⟩⟩ :=
    Parser.toOption_eq_some.1 (by decide +kernel)
  refine ⟨_, _, parsedR, parsedS, by decide, fun settings fact => ?_⟩
  refine run_eq_of_hashed (List.forall_mem_singleton.2 (CompiledRule.parsed_of_parse parsedR))
    (List.forall_mem_singleton.2 (CompiledRule.parsed_of_parse parsedS)) rfl
    (List.forall_mem_singleton.2 fun mixed => ?_) settings fact
  revert mixed
  decide +kernel

/-- The parts of a condition with an `||` cannot be told from its source. -/
theorem run_ne_of_hashed_disjunction :
    ∃ r s, CompiledRule.parse "r" ["this.a || this.b", "this.c"] ["this.hit = true"] = .ok r ∧
      CompiledRule.parse "r" ["this.a || this.b && this.c"] ["this.hit = true"] = .ok s ∧
      r.hashed = s.hashed ∧
      (Chain.run ⟨true, 64⟩ [r.toRule] [("a", .bool true)]).map Execution.matchPath = .ok [] ∧
      (Chain.run ⟨true, 64⟩ [s.toRule] [("a", .bool true)]).map Execution.matchPath =
        .ok ["r"] := by
  refine ⟨⟨"r", ⟨"this.a || this.b && this.c",
      [.infixed .or (.field ⟨"a", []⟩) (.field ⟨"b", []⟩), .field ⟨"c", []⟩]⟩,
      ⟨"this.hit = true", [.assign ⟨"hit", []⟩ (.literal (.bool true))]⟩⟩,
    ⟨"r", ⟨"this.a || this.b && this.c",
      [.infixed .or (.field ⟨"a", []⟩)
        (.infixed .and (.field ⟨"b", []⟩) (.field ⟨"c", []⟩))]⟩,
      ⟨"this.hit = true", [.assign ⟨"hit", []⟩ (.literal (.bool true))]⟩⟩, ?_, ?_, rfl, ?_, ?_⟩
  · exact Parser.toOption_eq_some.1 (by decide +kernel)
  · exact Parser.toOption_eq_some.1 (by decide +kernel)
  · exact Parser.toOption_eq_some.1 (by decide +kernel)
  · exact Parser.toOption_eq_some.1 (by decide +kernel)

end RuleSet

end DecisionTable
