import DecisionTable.Proofs.Formula.Lexemes
import DecisionTable.Proofs.Formula.Pinned

/-! # Where parse errors point

Tokens start one behind the other, so that the failing runs of the parser tell where the errors
point. An expression that is nested too deeply is reported at the next token, and there is none
where the tokens end with the parenthesis that is one too many (`ParseError.points_of_parse`).
-/

namespace DecisionTable

namespace Parser

variable {tokens : List Located} {e : ParseError} {α : Type}
  {read : List Located → Except ParseError α} {depth : Nat}

/-- The tokens end with a parenthesis, and without it the reader does not find them too deep. -/
def OpensTooDeep (read : List Located → Except ParseError α) (tokens : List Located) : Prop :=
  ∃ before offset, tokens = before ++ [⟨.openParen, offset⟩] ∧ ¬ IsTooDeep (read before)

theorem Pinned.mem {found : Token} {expected : Expected} {offset : Nat}
    (pinned : Pinned read depth tokens (.unexpected found expected offset)) :
    ⟨found, offset⟩ ∈ tokens := by
  generalize error : ParseError.unexpected found expected offset = e at pinned
  cases pinned with
  | @unexpected _ rest _ part =>
      cases rest with
      | nil => cases error
      | cons t rest =>
          cases error
          exact part List.mem_cons_self
  | operator | parenthesis => cases error

/-- A reader that is stopped by all tokens up to some place is not stopped by the last one of more
    tokens. -/
theorem not_opensTooDeep {front rest : List Located} {t : Located}
    (last : t.token = .openParen → IsTooDeep (read front))
    (deep : ∀ rest', IsTooDeep (read (front ++ t :: rest'))) :
    ¬ OpensTooDeep read (front ++ t :: rest) := by
  rintro ⟨before, offset, split, shallow⟩
  -- The last token is `t`, or one behind it.
  rcases List.eq_nil_or_concat rest with rfl | ⟨rest', final, rfl⟩
  · obtain ⟨rfl, eq⟩ := List.append_inj' split rfl
    cases eq
    exact shallow (last rfl)
  · rw [List.concat_eq_append, ← List.cons_append, ← List.append_assoc] at split
    obtain ⟨rfl, -⟩ := List.append_inj' split rfl
    exact shallow (deep rest')

theorem length_le_countP {front rest : List Located} {t : Located}
    (increasing : ((front ++ t :: rest).map Located.offset).Pairwise (· < ·)) :
    front.length ≤ (front ++ t :: rest).countP (·.offset < t.offset) := by
  rw [List.countP_append]
  refine Nat.le_add_right_of_le (Nat.le_of_eq (List.countP_eq_length.2 fun u mem => ?_).symm)
  rw [List.map_append, List.pairwise_append] at increasing
  exact decide_eq_true (increasing.2.2 _ (List.mem_map_of_mem mem) _ List.mem_cons_self)

/-- As many tokens as levels start before the place, unless the tokens end where the reader looks
    for the next one. -/
theorem Pinned.tooDeep_iff {offset : Nat} {located : List Located}
    (pinned : Pinned read depth tokens (.tooDeep offset)) (some : 0 < depth)
    (part : tokens.Sublist located)
    (increasing : (located.map Located.offset).Pairwise (· < ·)) :
    (depth ≤ located.countP (·.offset < offset) ↔ ¬ OpensTooDeep read tokens) ∧
      (OpensTooDeep read tokens → offset = 0) := by
  have increasing := increasing.sublist (part.map _)
  have stopped {front rest : List Located} {t : Located} (split : tokens = front ++ t :: rest)
      (here : offset = t.offset) (long : depth ≤ front.length)
      (last : t.token = .openParen → IsTooDeep (read front))
      (deep : ∀ rest', IsTooDeep (read (front ++ t :: rest'))) :
      (depth ≤ located.countP (·.offset < offset) ↔ ¬ OpensTooDeep read tokens) ∧
        (OpensTooDeep read tokens → offset = 0) := by
    subst split here
    have apart : ¬ OpensTooDeep read (front ++ t :: rest) := not_opensTooDeep last deep
    have enough := Nat.le_trans (length_le_countP increasing) part.countP_le
    exact ⟨iff_of_true (Nat.le_trans long enough) apart, fun opens => absurd opens apart⟩
  generalize error : ParseError.tooDeep offset = e at pinned
  cases pinned with
  | @unexpected _ rest _ _ => cases rest <;> cases error
  | @operator before t rest long other again =>
      cases error
      exact stopped rfl rfl long (fun opens => absurd opens other) fun rest' => ⟨_, again rest'⟩
  | @parenthesis before offset' rest long again without =>
      cases error
      cases rest with
      | nil =>
          have opens : OpensTooDeep read (before ++ [⟨.openParen, offset'⟩]) :=
            ⟨before, offset', rfl, fun ⟨_, deep⟩ => by rw [without] at deep; cases deep⟩
          have none : located.countP (·.offset < offsetOf []) = 0 := by simp [offsetOf]
          exact ⟨iff_of_false (by omega) (not_not_intro opens), fun _ => rfl⟩
      | cons t rest =>
          have longer : depth ≤ (before ++ [Located.mk .openParen offset']).length := by
            rw [List.length_append]
            exact Nat.le_add_right_of_le long
          refine stopped (List.append_cons ..) rfl longer (fun _ => ⟨_, again []⟩) fun rest' => ?_
          rw [← List.append_cons]
          exact ⟨_, again (t :: rest')⟩

end Parser

/-- What an error of a reader tells of the tokens of its text. A token that was not expected is one
    of them. The place of an invalid target is the first token of a statement that assigns to no
    field. Where the nesting is too deep, `maxDepth - 1` tokens start before the place, unless the
    tokens that the reader is given end with the parenthesis that is one too many. Then the place
    is 0. -/
structure ParseError.Points {α : Type} (read : List Located → Except ParseError α)
    (tokens located : List Located) (e : ParseError) : Prop where
  unexpected : ∀ {found expected offset}, e = .unexpected found expected offset →
    ⟨found, offset⟩ ∈ located
  invalidTarget : ∀ {offset}, e = .invalidTarget offset →
    Parser.Misassigned .folding located offset
  tooDeep : ∀ {offset}, e = .tooDeep offset →
    (maxDepth - 1 ≤ located.countP (·.offset < offset) ↔ ¬ Parser.OpensTooDeep read tokens) ∧
      (Parser.OpensTooDeep read tokens → offset = 0)

namespace Parser

variable {e : ParseError} {α : Type} {read : List Located → Except ParseError α}
  {tokens located : List Located}

theorem Pinned.points (pinned : Pinned read (maxDepth - 1) tokens e)
    (part : tokens.Sublist located) (increasing : (located.map Located.offset).Pairwise (· < ·)) :
    e.Points read tokens located where
  unexpected := by
    rintro found expected offset rfl
    exact part.subset pinned.mem
  invalidTarget := by
    rintro offset rfl
    generalize error : ParseError.invalidTarget offset = e at pinned
    cases pinned with
    | @unexpected _ rest _ _ => cases rest <;> cases error
    | operator | parenthesis => cases error
  tooDeep := by
    rintro offset rfl
    exact pinned.tooDeep_iff (by decide) part increasing

end Parser

namespace Expression

open DecisionTable.Parser

variable {prefixing : Prefixing} {located : List Located} {e : ParseError}

theorem ofTokens_error (failed : ofTokens prefixing located = .error e) :
    e = .empty ∨ Pinned (expression prefixing maxDepth) (maxDepth - 1)
      (located.filter (·.token != .newline)) e := by
  unfold ofTokens at failed
  split at failed
  · cases failed
    exact .inl rfl
  · split at failed
    · rename_i unread
      cases failed
      exact .inr (expression_pinned unread)
    · cases failed
    · rename_i rest _ read
      cases failed
      obtain ⟨front, split, -⟩ := expression_front read
      exact .inr (.unexpected _ (split ▸ List.subset_append_right front rest))

theorem ofTokens_of_error
    (failed : expression prefixing maxDepth (located.filter (·.token != .newline)) = .error e)
    (some : located.filter (·.token != .newline) ≠ []) : ofTokens prefixing located = .error e := by
  unfold ofTokens
  split
  · contradiction
  · rw [failed]

theorem isTooDeep_ofTokens : IsTooDeep (ofTokens prefixing located) ↔
    IsTooDeep (expression prefixing maxDepth (located.filter (·.token != .newline))) := by
  unfold ofTokens
  split
  · rename_i none
    rw [none]
    constructor <;> rintro ⟨_, ⟨⟩⟩
  · split
    · rename_i unread
      rw [unread]
      simp [IsTooDeep]
    · rename_i read
      rw [read]
      constructor <;> rintro ⟨_, ⟨⟩⟩
    · rename_i rest _ read
      rw [read]
      cases rest <;> constructor <;> rintro ⟨_, ⟨⟩⟩

/-- Line breaks left out, the tokens end as the expression does. -/
theorem opensTooDeep_ofTokens {tokens : List Located}
    (whole : ∀ t ∈ tokens, (t.token != .newline) = true) :
    OpensTooDeep (ofTokens prefixing) tokens ↔
      OpensTooDeep (expression prefixing maxDepth) tokens := by
  refine exists_congr fun before => exists_congr fun offset => and_congr_right fun split => ?_
  rw [isTooDeep_ofTokens, List.filter_eq_self.2 fun t mem => whole t ?_]
  rw [split]
  exact List.mem_append_left _ mem

end Expression

theorem Expression.parse_of_tokens {text : String} {located : List Located}
    (tokenized : tokenize text = .ok located) : parse text = ofTokens .folding located := by
  rw [parse, tokenized]
  rfl

theorem Statement.parseAll_of_tokens {text : String} {located : List Located}
    (tokenized : tokenize text = .ok located) :
    parseAll text = Parser.statements .folding located := by
  rw [parseAll, tokenized]
  rfl

/-- Where a text that has tokens fails to parse, the error points at them. The reader of an
    expression is not given the line breaks. -/
theorem ParseError.points_of_parse {text : String} {located : List Located}
    (tokenized : tokenize text = .ok located) :
    (∀ e, Expression.parse text = .error e →
      e.Points (Expression.ofTokens .folding) (located.filter (·.token != .newline)) located) ∧
    (∀ e, Statement.parseAll text = .error e →
      e.Points (Parser.statements .folding) located located) := by
  have increasing := (Lexer.accounted_of_tokens tokenized).increasing
  constructor
  · intro e failed
    rw [Expression.parse_of_tokens tokenized] at failed
    rcases Expression.ofTokens_error failed with rfl | pinned
    · exact ⟨nofun, nofun, nofun⟩
    · have points := pinned.points List.filter_sublist increasing
      refine ⟨points.unexpected, points.invalidTarget, fun deep => ?_⟩
      rw [Expression.opensTooDeep_ofTokens fun t mem => (List.mem_filter.1 mem).2]
      exact points.tooDeep deep
  · intro e failed
    rw [Statement.parseAll_of_tokens tokenized] at failed
    rcases Parser.statements_explains failed with pinned | ⟨offset, rfl, wrong⟩
    · exact pinned.points (List.Sublist.refl _) increasing
    · refine ⟨nofun, ?_, nofun⟩
      rintro _ ⟨⟩
      exact wrong

/-! ## Parentheses -/

/-- Opening parentheses, the first of them at an offset. -/
def parentheses (offset n : Nat) : List Located := (List.range' offset n).map (⟨.openParen, ·⟩)

theorem parentheses_succ (offset n : Nat) :
    parentheses offset (n + 1) = ⟨.openParen, offset⟩ :: parentheses (offset + 1) n := rfl

theorem parentheses_pos {offset n : Nat} (some : 0 < n) :
    parentheses offset n = ⟨.openParen, offset⟩ :: parentheses (offset + 1) (n - 1) := by
  rw [← parentheses_succ, Nat.sub_add_cancel some]

theorem Lexer.tokens_parentheses (offset n : Nat) (more : List Char) :
    tokens offset (List.replicate n '(' ++ more) =
      (tokens (offset + n) more).map (parentheses offset n ++ ·) := by
  induction n generalizing offset with
  | zero =>
      rw [List.replicate_zero, List.nil_append, Nat.add_zero]
      cases tokens offset more <;> rfl
  | succ n ih =>
      have read : scan offset '(' (List.replicate n '(' ++ more) =
          .ok ⟨['('], some .openParen, List.replicate n '(' ++ more⟩ := rfl
      rw [List.replicate_succ, List.cons_append, tokens_cons read]
      have wide : offset + width ['('] = offset + 1 := rfl
      rw [wide, ih, Nat.add_right_comm, Nat.add_assoc offset n 1]
      cases tokens (offset + (n + 1)) more <;> rfl

theorem Parser.operand_parentheses {prefixing : Prefixing} (room offset : Nat)
    (rest : List Located) :
    operand prefixing room (parentheses offset (room + 1) ++ rest) =
      .error (.tooDeep (offsetOf rest)) := by
  induction room generalizing offset with
  | zero => exact operand_openParen_zero
  | succ room ih =>
      rw [parentheses_succ, List.cons_append, operand_openParen, chain, ih]
      rfl

theorem parse_parentheses {more : List Char} {rest : List Located}
    (found : Lexer.tokens maxDepth more = .ok rest)
    (whole : ∀ t ∈ rest, (t.token != .newline) = true) :
    let text := String.ofList (List.replicate maxDepth '(' ++ more)
    tokenize text = .ok (parentheses 0 maxDepth ++ rest) ∧
      Expression.parse text = .error (.tooDeep (Parser.offsetOf rest)) ∧
      Statement.parseAll text = .error (.tooDeep (Parser.offsetOf rest)) := by
  intro text
  have tokenized : tokenize text = .ok (parentheses 0 maxDepth ++ rest) := by
    rw [tokenize, String.toList_ofList, Lexer.tokens_parentheses, Nat.zero_add, found]
    rfl
  have failed : Parser.expression .folding maxDepth (parentheses 0 maxDepth ++ rest) =
      .error (.tooDeep (Parser.offsetOf rest)) :=
    Parser.bind_eq_error.2 (.inl (Parser.operand_parentheses (maxDepth - 1) 0 rest))
  have kept : (parentheses 0 maxDepth ++ rest).filter (·.token != .newline) =
      parentheses 0 maxDepth ++ rest := by
    refine List.filter_eq_self.2 fun t mem => ?_
    rcases List.mem_append.1 mem with opens | mem
    · obtain ⟨offset, -, rfl⟩ := List.mem_map.1 opens
      rfl
    · exact whole t mem
  -- Only the first parenthesis is split off: it shows that the tokens start with no separator.
  have first : parentheses 0 maxDepth ++ rest =
      ⟨.openParen, 0⟩ :: (parentheses 1 (maxDepth - 1) ++ rest) := by
    rw [parentheses_pos (by decide), List.cons_append]
  refine ⟨tokenized, ?_, ?_⟩
  · rw [Expression.parse_of_tokens tokenized]
    refine Expression.ofTokens_of_error (kept.symm ▸ failed) ?_
    rw [kept, first]
    exact List.cons_ne_nil _ _
  · rw [Statement.parseAll_of_tokens tokenized]
    rw [first] at failed ⊢
    exact Parser.statements_of_error rfl (Parser.statement_of_error failed)

/-- A word behind more parentheses than there are levels. -/
theorem ParseError.points_of_parse_nested :
    let text := String.ofList (List.replicate maxDepth '(' ++ ['a'])
    let located := parentheses 0 maxDepth ++ [⟨.word "a", 256⟩]
    tokenize text = .ok located ∧ Expression.parse text = .error (.tooDeep 256) ∧
      maxDepth - 1 ≤ located.countP (·.offset < 256) := by
  intro text located
  have word : Lexer.tokens maxDepth ['a'] = .ok [⟨.word "a", 256⟩] := by decide +kernel
  obtain ⟨tokenized, failed, -⟩ := parse_parentheses word (by decide)
  have points := (points_of_parse tokenized).1 _ failed
  refine ⟨tokenized, failed, (points.tooDeep rfl).1.2 ?_⟩
  rintro ⟨before, offset, ends, -⟩
  rw [List.filter_append] at ends
  cases (List.append_inj' ends rfl).2

/-- Where the tokens end with the parenthesis that is one too many, no token starts before the
    place. -/
theorem ParseError.tooDeep_at_zero :
    let text := String.ofList (List.replicate maxDepth '(')
    ∃ located, tokenize text = .ok located ∧ Expression.parse text = .error (.tooDeep 0) ∧
      Statement.parseAll text = .error (.tooDeep 0) ∧
      ¬ maxDepth - 1 ≤ located.countP (·.offset < 0) := by
  have nothing : Lexer.tokens maxDepth [] = .ok [] := by rw [Lexer.tokens]
  obtain ⟨tokenized, failed, failed'⟩ := parse_parentheses nothing (by simp)
  rw [List.append_nil] at tokenized failed failed'
  refine ⟨_, tokenized, failed, failed', ?_⟩
  simp [maxDepth]

end DecisionTable
