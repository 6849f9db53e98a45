import DecisionTable.Proofs.Formula.Soundness

/-! # What the grammar derives is read

If there is room for them, the parser reads the tokens of a derivation as the expression that
they derive. It needs no more room than there are tokens: so with enough room every
derivation is found, and tokens derive at most one expression (`Derives.unique`). The parser
in use accepts what the grammar derives, up to nesting that takes 256 tokens or more.
-/

namespace DecisionTable

open Grammar

namespace Parser

/-- The parser ran out of room. -/
def IsTooDeep {α : Type} (result : Except ParseError α) : Prop :=
  ∃ offset, result = .error (.tooDeep offset)

theorem IsTooDeep.bind {α β : Type} {result : Except ParseError α} {f : α → Except ParseError β}
    (h : IsTooDeep result) : IsTooDeep (result >>= f) := by
  obtain ⟨offset, rfl⟩ := h
  exact ⟨offset, rfl⟩

/-- What may stand behind an expression of a level: no member, and no operator of a tighter level.
    A looser operator may follow, and has the expression as its left side. -/
structure Closes (level : Nat) (rest : List Located) : Prop where
  noMember : members rest = .ok ([], rest)
  noTighter : infixOp? (level + 1) rest = none

theorem Closes.mono {level tighter : Nat} {rest : List Located} (le : level ≤ tighter)
    (closes : Closes level rest) : Closes tighter rest :=
  ⟨closes.noMember, infixOp?_eq_none_mono (Nat.succ_le_succ le) closes.noTighter⟩

theorem closes_nil (level : Nat) : Closes level [] := ⟨rfl, rfl⟩

theorem closes_closeParen (level offset : Nat) (rest : List Located) :
    Closes level (⟨.closeParen, offset⟩ :: rest) := ⟨by simp [members], rfl⟩

theorem closes_operator {level : Nat} {op : InfixOp} (offset : Nat) (rest : List Located)
    (loose : op.precedence ≤ level) : Closes level (⟨.operator op, offset⟩ :: rest) :=
  ⟨by simp [members], by simp [infixOp?]; omega⟩

theorem map_token_eq_cons {located : List Located} {t : Token} {tokens : List Token}
    (spelled : located.map Located.token = t :: tokens) :
    ∃ offset behind, located = ⟨t, offset⟩ :: behind ∧ behind.map Located.token = tokens := by
  obtain ⟨⟨_, offset⟩, behind, rfl, rfl, others⟩ := List.map_eq_cons_iff.1 spelled
  exact ⟨offset, behind, rfl, others⟩

theorem members_complete {tokens : List Token} {names : List String}
    (accesses : Accesses tokens names) {located rest : List Located}
    (spelled : located.map Located.token = tokens) (noMember : members rest = .ok ([], rest)) :
    members (located ++ rest) = .ok (names, rest) := by
  induction accesses generalizing located with
  | nil =>
      rw [List.map_eq_nil_iff] at spelled
      subst spelled
      exact noMember
  | named _ ih =>
      obtain ⟨_, _, rfl, inner⟩ := map_token_eq_cons spelled
      obtain ⟨_, _, rfl, others⟩ := map_token_eq_cons inner
      simp [members, ih others, Except.map]
  | keyed _ ih =>
      obtain ⟨_, _, rfl, inner⟩ := map_token_eq_cons spelled
      obtain ⟨_, _, rfl, closing⟩ := map_token_eq_cons inner
      obtain ⟨_, _, rfl, others⟩ := map_token_eq_cons closing
      simp [members, memberKey?, ih others, Except.map]
  | indexed whole _ ih =>
      obtain ⟨_, _, rfl, inner⟩ := map_token_eq_cons spelled
      obtain ⟨_, _, rfl, closing⟩ := map_token_eq_cons inner
      obtain ⟨_, _, rfl, others⟩ := map_token_eq_cons closing
      simp [members, memberKey?, whole, ih others, Except.map]

/-- With any room, the parser reads the tokens of an operand, or there are more of them than
    room. -/
def ReadsOperand (tokens : List Token) (e : Expression) : Prop :=
  ∀ room ⦃located rest⦄, located.map Located.token = tokens → members rest = .ok ([], rest) →
    operand .folding room (located ++ rest) = .ok (e, rest) ∨
      IsTooDeep (operand .folding room (located ++ rest)) ∧ room < located.length

/-- With any room, the parser gets past the tokens of a level and goes on to climb behind them, or
    there are more of them than room. The room that is left is short by fewer levels than there
    are tokens. -/
def ReadsChain (level : Nat) (tokens : List Token) (e : Expression) : Prop :=
  ∀ room ⦃least located rest⦄, located.map Located.token = tokens → least ≤ level →
    Closes level rest →
    (∃ left, room < left + located.length ∧
      chain .folding room least (located ++ rest) = climb .folding left least e rest) ∨
      IsTooDeep (chain .folding room least (located ++ rest)) ∧ room < located.length

theorem ReadsOperand.chain {level : Nat} {tokens : List Token} {e : Expression}
    (reads : ReadsOperand tokens e) (nonempty : tokens ≠ []) : ReadsChain level tokens e := by
  intro room least located rest spelled _ closes
  have some : 0 < located.length := by
    rw [← List.length_map Located.token, spelled]
    exact List.length_pos_iff.2 nonempty
  rcases reads room spelled closes.noMember with read | ⟨deep, short⟩
  · exact .inl ⟨room, by omega, by rw [Parser.chain, read]; rfl⟩
  · exact .inr ⟨deep.bind, short⟩

/-- At the end of a chain nothing is left to climb. -/
theorem ReadsChain.read {level least : Nat} {tokens : List Token} {e : Expression}
    {located rest : List Located} (reads : ReadsChain level tokens e) (room : Nat)
    (spelled : located.map Located.token = tokens) (low : least ≤ level)
    (closes : Closes level rest) (stops : infixOp? least rest = none) :
    chain .folding room least (located ++ rest) = .ok (e, rest) ∨
      IsTooDeep (chain .folding room least (located ++ rest)) ∧ room < located.length := by
  rcases reads room spelled low closes with ⟨left, -, climbed⟩ | deep
  · exact .inl (by rw [climbed, climb_stop stops])
  · exact .inr deep

theorem ReadsChain.loosen {level : Nat} {tokens : List Token} {e : Expression}
    (reads : ReadsChain (level + 1) tokens e) : ReadsChain level tokens e :=
  fun room _ _ _ spelled low closes =>
    reads room spelled (Nat.le_succ_of_le low) (closes.mono (Nat.le_succ level))

theorem ReadsChain.infixed {level : Nat} {op : InfixOp} {front behind : List Token}
    {left right : Expression} (belongs : op.precedence = level)
    (readsLeft : ReadsChain level front left) (readsRight : ReadsChain (level + 1) behind right) :
    ReadsChain level (front ++ .operator op :: behind) (.infixed op left right) := by
  subst belongs
  intro room least located rest spelled low closes
  obtain ⟨l, onward, rfl, spelledLeft, operated⟩ := List.map_eq_append_iff.1 spelled
  obtain ⟨offset, r, rfl, spelledRight⟩ := map_token_eq_cons operated
  simp only [List.append_assoc, List.cons_append, List.length_append, List.length_cons]
  rcases readsLeft room spelledLeft low (closes_operator offset (r ++ rest) (Nat.le_refl _))
    with ⟨room', short, climbed⟩ | ⟨deep, short⟩
  · have found : infixOp? least (⟨.operator op, offset⟩ :: (r ++ rest)) = some (op, r ++ rest) :=
      infixOp?_eq_some.2 ⟨low, offset, rfl⟩
    rw [climbed]
    cases room' with
    | zero =>
        rw [climb_zero found]
        exact .inr ⟨⟨_, rfl⟩, by omega⟩
    | succ room' =>
        rw [climb_step found]
        rcases readsRight.read room' spelledRight (Nat.le_refl _)
          (closes.mono (Nat.le_succ _)) closes.noTighter with read | ⟨deep, short'⟩
        · rw [read]
          exact .inl ⟨room', by omega, rfl⟩
        · exact .inr ⟨deep.bind, by omega⟩
  · exact .inr ⟨deep, by omega⟩

theorem ReadsOperand.prefixed {t : Token} {tokens : List Token} {e : Expression}
    (reads : ReadsOperand tokens e) (op : PrefixOp)
    (found : ∀ {offset rest}, prefixOp? (⟨t, offset⟩ :: rest) = some (op, rest)) :
    ReadsOperand (t :: tokens) (Prefixing.folding op e) := by
  intro room located rest spelled noMember
  obtain ⟨offset, behind, rfl, within⟩ := map_token_eq_cons spelled
  cases room with
  | zero => exact .inr ⟨⟨_, operand_prefixed_zero found⟩, by simp⟩
  | succ room =>
      simp only [List.cons_append, operand_prefixed found, List.length_cons]
      rcases reads room within noMember with read | ⟨⟨deep, failed⟩, short⟩
      · exact .inl (by rw [read]; rfl)
      · exact .inr ⟨⟨deep, by rw [failed]; rfl⟩, by omega⟩

theorem ReadsOperand.parenthesized {tokens : List Token} {e : Expression}
    (reads : ReadsChain 1 tokens e) :
    ReadsOperand (.openParen :: tokens ++ [.closeParen]) e := by
  intro room located rest spelled noMember
  obtain ⟨offset, onward, rfl, opened⟩ := map_token_eq_cons spelled
  obtain ⟨inner, last, rfl, within, closing⟩ := List.map_eq_append_iff.1 opened
  obtain ⟨offset', nothing, rfl, ended⟩ := map_token_eq_cons closing
  rw [List.map_eq_nil_iff] at ended
  subst ended
  simp only [List.cons_append, List.append_assoc, List.nil_append, List.length_cons,
    List.length_append, List.length_nil]
  cases room with
  | zero => exact .inr ⟨⟨_, operand_openParen_zero⟩, by omega⟩
  | succ room =>
      rw [operand_openParen]
      rcases reads.read room within (Nat.le_refl 1)
        (closes_closeParen 1 offset' rest) rfl with read | ⟨deep, short⟩
      · exact .inl (by rw [read]; rfl)
      · exact .inr ⟨deep.bind, by omega⟩

/-- An operand of one word. -/
theorem ReadsOperand.word {name : String} {tokens : List Token} {e : Expression}
    (read : ∀ {located rest}, located.map Located.token = tokens →
      members rest = .ok ([], rest) → Parser.word name (located ++ rest) = .ok (e, rest)) :
    ReadsOperand (.word name :: tokens) e := by
  intro room located rest spelled noMember
  obtain ⟨offset, behind, rfl, within⟩ := map_token_eq_cons spelled
  rw [List.cons_append, operand_atom rfl (by simp)]
  exact .inl (read within noMember)

theorem ReadsOperand.literal {t : Token} {value : Json}
    (read : ∀ {offset rest}, atom (⟨t, offset⟩ :: rest) = .ok (.literal value, rest))
    (noPrefix : ∀ {offset rest}, prefixOp? (⟨t, offset⟩ :: rest) = none)
    (noParen : t ≠ .openParen) : ReadsOperand [t] (.literal value) := by
  intro room located rest spelled _
  obtain ⟨offset, behind, rfl, within⟩ := map_token_eq_cons spelled
  rw [List.map_eq_nil_iff] at within
  subst within
  rw [List.cons_append, operand_atom noPrefix noParen]
  exact .inl read

theorem word_constant {name : String} {value : Json} (known : (name, value) ∈ constants)
    (rest : List Located) : word name rest = .ok (.literal value, rest) := by
  simp only [constants, List.mem_cons, Prod.mk.injEq, List.not_mem_nil, or_false] at known
  rcases known with ⟨rfl, rfl⟩ | ⟨rfl, rfl⟩ | ⟨rfl, rfl⟩ | ⟨rfl, rfl⟩ <;> rfl

theorem word_path {name : String} (notConstant : name ∉ constants.map Prod.fst)
    (notThis : name ≠ "this") (rest : List Located) :
    word name rest = (members rest).map fun (others, rest) => (.field ⟨name, others⟩, rest) := by
  unfold word
  split <;> simp_all [constants]

theorem folding_eq_prefixed {op : PrefixOp} {e : Expression}
    (kept : op = .negate → ∀ n, e ≠ .literal (.number n)) :
    Prefixing.folding op e = .prefixed op e := by
  unfold Prefixing.folding
  split
  · exact absurd rfl (kept rfl _)
  · rfl

/-- The parser reads what the grammar derives, as far as room goes. Level 7 alone is read by
    `operand`; each level is read by `chain`. -/
theorem Derives.reads {level : Nat} {tokens : List Token} {e : Expression}
    (d : Derives level tokens e) :
    (level = 7 → ReadsOperand tokens e) ∧ ReadsChain level tokens e := by
  have operand : ∀ {level tokens e}, Derives level tokens e → ReadsOperand tokens e →
      (level = 7 → ReadsOperand tokens e) ∧ ReadsChain level tokens e :=
    fun d reads => ⟨fun _ => reads, reads.chain d.ne_nil⟩
  induction d with
  | tighter d ih =>
      refine ⟨fun eq => ?_, ih.2.loosen⟩
      subst eq
      exact absurd d.level_le (by decide)
  | @infixed level _ _ _ _ _ belongs _ _ ihl ihr =>
      refine ⟨fun eq => ?_, ihl.2.infixed (mem_operators_iff.1 belongs) ihr.2⟩
      subst eq
      simp [operators] at belongs
  | not d ih => exact operand d.not ((ih.1 rfl).prefixed .not rfl)
  | opposite d ih => exact operand d.opposite ((ih.1 rfl).prefixed .negate rfl)
  | @negate _ e d other ih =>
      have kept := folding_eq_prefixed fun (_ : PrefixOp.negate = .negate) => other
      exact operand (d.negate other) (kept ▸ (ih.1 rfl).prefixed .negate rfl)
  | number => exact operand .number (.literal rfl rfl (by simp))
  | string => exact operand .string (.literal rfl rfl (by simp))
  | constant known =>
      refine operand (.constant known) (.word fun spelled _ => ?_)
      rw [List.map_eq_nil_iff] at spelled
      subst spelled
      exact word_constant known _
  | this accesses =>
      refine operand (.this accesses) (.word fun spelled noMember => ?_)
      simp only [word, members_complete accesses spelled noMember]
  | path notConstant notThis accesses =>
      refine operand (.path notConstant notThis accesses) (.word fun spelled noMember => ?_)
      rw [word_path notConstant notThis, members_complete accesses spelled noMember]
      rfl
  | parenthesized d ih => exact operand d.parenthesized (.parenthesized ih.2)

theorem expression_complete {tokens : List Token} {e : Expression} {located : List Located}
    (d : Derives 1 tokens e) (spelled : located.map Located.token = tokens) (room : Nat) :
    expression .folding (room + 1) located = .ok (e, []) ∨
      IsTooDeep (expression .folding (room + 1) located) ∧ room < located.length := by
  rw [expression_succ, ← List.append_nil located]
  simpa using (Derives.reads d).2.read room spelled (Nat.le_refl 1) (closes_nil 1) rfl

end Parser

/-- Tokens derive at most one expression: the parser finds each of them when it has enough room. -/
theorem Grammar.Derives.unique {level : Nat} {tokens : List Token} {e e' : Expression}
    (d : Derives level tokens e) (d' : Derives level tokens e') : e = e' := by
  let located := tokens.map fun t => Located.mk t 0
  have spelled : located.map Located.token = tokens := by simp [located, Function.comp_def]
  have found : ∀ {e}, Derives level tokens e →
      Parser.chain .folding located.length level (located ++ []) = .ok (e, []) := by
    intro e d
    rcases (Parser.Derives.reads d).2.read located.length spelled (Nat.le_refl level)
      (Parser.closes_nil level) rfl with read | ⟨-, short⟩
    · exact read
    · exact absurd short (Nat.lt_irrefl _)
  have same := (found d).symm.trans (found d')
  cases same
  rfl

namespace Expression

/-- The tokens that count in an expression: all but line breaks. -/
def significant (located : List Located) : List Token :=
  (located.map Located.token).filter (· != .newline)

theorem map_token_filter (located : List Located) :
    (located.filter (·.token != .newline)).map Located.token = significant located := by
  simp [significant, List.filter_map, Function.comp_def]

theorem ofTokens_sound {located : List Located} {e : Expression}
    (h : ofTokens .folding located = .ok e) : Derives 1 (significant located) e := by
  obtain ⟨used, spelled, d⟩ := Parser.expression_sound (ofTokens_eq_ok.1 h)
  rw [List.append_nil] at spelled
  rwa [← map_token_filter, spelled]

theorem ofTokens_complete {located : List Located} {e : Expression}
    (d : Derives 1 (significant located) e) :
    ofTokens .folding located = .ok e ∨
      (∃ offset, ofTokens .folding located = .error (.tooDeep offset)) ∧
        maxDepth ≤ (significant located).length := by
  have spelled := map_token_filter located
  unfold ofTokens
  generalize located.filter (·.token != .newline) = kept at spelled
  rw [← spelled] at d ⊢
  rw [List.length_map]
  split
  · exact absurd rfl d.ne_nil
  · rcases Parser.expression_complete d rfl 255 with read | ⟨⟨offset, failed⟩, short⟩
    · exact .inl (by rw [show maxDepth = 255 + 1 from rfl, read])
    · exact .inr ⟨⟨offset, by rw [show maxDepth = 255 + 1 from rfl, failed]⟩, short⟩

/-- The parser accepts what the grammar derives, with the tree that the grammar gives it. It
    refuses a derivable text only for its nesting, which takes at least 256 tokens. -/
theorem parse_iff_derives {text : String} {located : List Located}
    (tokenized : tokenize text = .ok located) :
    (∀ e, parse text = .ok e → Derives 1 (significant located) e) ∧
    (∀ e, Derives 1 (significant located) e → parse text = .ok e ∨
      (∃ offset, parse text = .error (.tooDeep offset)) ∧
        256 ≤ (significant located).length) ∧
    (∀ e e', parse text = .ok e → Derives 1 (significant located) e' → e' = e) ∧
    (∀ error, parse text = .error error → (∀ offset, error ≠ .tooDeep offset) →
      ∀ e, ¬ Derives 1 (significant located) e) := by
  have parsed : parse text = ofTokens .folding located := by rw [parse, tokenized]; rfl
  rw [parsed]
  refine ⟨fun e h => ofTokens_sound h, fun e d => ofTokens_complete d,
    fun e e' h d => d.unique (ofTokens_sound h), fun error failed other e d => ?_⟩
  rcases ofTokens_complete d with ok | ⟨⟨offset, deep⟩, -⟩
  · rw [ok] at failed
    cases failed
  · rw [deep] at failed
    cases failed
    exact other offset rfl

theorem parse_iff_derives_mixed :
    tokenize "-3 < a ||\n!b['x'][0]" = .ok
      [⟨.operator .sub, 0⟩, ⟨.number (.ofNat 3), 1⟩, ⟨.operator .less, 3⟩, ⟨.word "a", 5⟩,
        ⟨.operator .or, 7⟩, ⟨.newline, 9⟩, ⟨.bang, 10⟩, ⟨.word "b", 11⟩, ⟨.openBracket, 12⟩,
        ⟨.string "x", 13⟩, ⟨.closeBracket, 16⟩, ⟨.openBracket, 17⟩, ⟨.number (.ofNat 0), 18⟩,
        ⟨.closeBracket, 19⟩] ∧
      Derives 1
        [.operator .sub, .number (.ofNat 3), .operator .less, .word "a", .operator .or, .bang,
          .word "b", .openBracket, .string "x", .closeBracket, .openBracket, .number (.ofNat 0),
          .closeBracket]
        (.infixed .or
          (.infixed .less (.literal (.number (.integer (-3) (by decide)))) (.field ⟨"a", []⟩))
          (.prefixed .not (.field ⟨"b", ["x", "0"]⟩))) := by
  refine ⟨?tokenized, (parse_iff_derives ?tokenized).1 _ ?parsed⟩
  case tokenized => exact Parser.toOption_eq_some.1 (by decide +kernel)
  case parsed => exact Parser.toOption_eq_some.1 (by decide +kernel)

end Expression

end DecisionTable
