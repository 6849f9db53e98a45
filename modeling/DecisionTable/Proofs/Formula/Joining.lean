import DecisionTable.Proofs.Formula.Completeness
import DecisionTable.Proofs.Formula.Lexing

/-! # Joined statements

No statement reaches behind a separator. What the parser reads from some tokens it also reads
when they stand elsewhere and a separator follows them (`operand_climb_extends`), so the
statements of joined texts are those of the texts, one after the other
(`Statement.parseAll_join_iff`).
-/

namespace DecisionTable

namespace Parser

/-- `Extends more tokens tokens'`: the same tokens, wherever they stand, with `more` behind. -/
def Extends (more tokens tokens' : List Located) : Prop :=
  ∃ front, front.map Located.token = tokens.map Located.token ∧ tokens' = front ++ more

variable {prefixing : Prefixing} {more tokens tokens' : List Located}

theorem Extends.of_cons {t : Located} {rest : List Located}
    (extends_ : Extends more (t :: rest) tokens') :
    ∃ offset rest', tokens' = ⟨t.token, offset⟩ :: rest' ∧ Extends more rest rest' := by
  obtain ⟨front, spelled, rfl⟩ := extends_
  obtain ⟨offset, behind, rfl, others⟩ := map_token_eq_cons spelled
  exact ⟨offset, behind ++ more, rfl, behind, others, rfl⟩

theorem Extends.of_nil (extends_ : Extends more [] tokens') : tokens' = more := by
  obtain ⟨front, spelled, rfl⟩ := extends_
  rw [List.map_eq_nil_iff.1 spelled, List.nil_append]

theorem prefixOp?_extends {op : PrefixOp} {behind : List Located}
    (found : prefixOp? tokens = some (op, behind)) (extends_ : Extends more tokens tokens') :
    ∃ behind', prefixOp? tokens' = some (op, behind') ∧ Extends more behind behind' := by
  unfold prefixOp? at found
  split at found <;> cases found
  · obtain ⟨offset, rest', rfl, others⟩ := extends_.of_cons
    exact ⟨rest', rfl, others⟩
  · obtain ⟨offset, rest', rfl, others⟩ := extends_.of_cons
    exact ⟨rest', rfl, others⟩

theorem infixOp?_extends {least : Nat} {op : InfixOp} {behind : List Located}
    (found : infixOp? least tokens = some (op, behind)) (extends_ : Extends more tokens tokens') :
    ∃ behind', infixOp? least tokens' = some (op, behind') ∧ Extends more behind behind' := by
  obtain ⟨low, offset, rfl⟩ := infixOp?_eq_some.1 found
  obtain ⟨offset', rest', rfl, others⟩ := extends_.of_cons
  exact ⟨rest', infixOp?_eq_some.2 ⟨low, offset', rfl⟩, others⟩

theorem members_stop (other : ∀ t ∈ tokens.head?, t.token ≠ .dot ∧ t.token ≠ .openBracket) :
    members tokens = .ok ([], tokens) := by
  match tokens with
  | [] => rfl
  | ⟨t, offset⟩ :: rest =>
      obtain ⟨noDot, noBracket⟩ := other _ rfl
      cases t <;> simp_all [members]

theorem token_of_isSeparator {t : Located} (separates : isSeparator t = true) :
    t.token = .semicolon ∨ t.token = .newline := by
  simpa [isSeparator] using separates

/-- Where the members end there is no sign of a further one. -/
theorem next_of_stop
    (noField : ∀ offset behind, tokens = ⟨.dot, offset⟩ :: behind → False)
    (noKey : ∀ offset key behind, tokens = ⟨.openBracket, offset⟩ :: key :: behind → False)
    (noBracket : ∀ offset, tokens = [⟨.openBracket, offset⟩] → False) :
    ∀ t ∈ tokens.head?, t.token ≠ .dot ∧ t.token ≠ .openBracket := by
  intro t head
  obtain ⟨rest, rfl⟩ := List.head?_eq_some_iff.1 head
  constructor
  · intro eq
    exact noField t.offset rest (congrArg (fun token => ⟨token, t.offset⟩ :: rest) eq)
  · intro eq
    cases rest with
    | nil => exact noBracket t.offset (congrArg (fun token => [Located.mk token t.offset]) eq)
    | cons key rest =>
        exact noKey t.offset key rest
          (congrArg (fun token => ⟨token, t.offset⟩ :: key :: rest) eq)

section Ends

variable (ends : ∀ t ∈ more.head?, isSeparator t = true)
include ends

theorem prefixOp?_none_extends (noPrefix : prefixOp? tokens = none)
    (extends_ : Extends more tokens tokens') : prefixOp? tokens' = none := by
  match tokens with
  | [] =>
      obtain rfl := extends_.of_nil
      match tokens' with
      | [] => rfl
      | ⟨t, offset⟩ :: rest =>
          rcases token_of_isSeparator (ends _ rfl) with rfl | rfl <;> rfl
  | ⟨t, offset⟩ :: rest =>
      obtain ⟨offset', rest', rfl, -⟩ := extends_.of_cons
      unfold prefixOp? at noPrefix ⊢
      split <;> simp_all

theorem infixOp?_none_extends {least : Nat} (stops : infixOp? least tokens = none)
    (extends_ : Extends more tokens tokens') : infixOp? least tokens' = none := by
  match tokens with
  | [] =>
      obtain rfl := extends_.of_nil
      match tokens' with
      | [] => rfl
      | ⟨t, offset⟩ :: rest =>
          rcases token_of_isSeparator (ends _ rfl) with rfl | rfl <;> rfl
  | ⟨t, offset⟩ :: rest =>
      obtain ⟨offset', rest', rfl, -⟩ := extends_.of_cons
      cases t <;> simp_all [infixOp?]

theorem members_extends {rest : List Located} {names : List String}
    (read : members tokens = .ok (names, rest)) (extends_ : Extends more tokens tokens') :
    ∃ rest', members tokens' = .ok (names, rest') ∧ Extends more rest rest' := by
  fun_induction members tokens generalizing tokens' names rest with
  | case1 offset name offset' others ih =>
      obtain ⟨⟨names', rest⟩, readOthers, eq⟩ := map_eq_ok.1 read
      cases eq
      obtain ⟨_, _, rfl, inner⟩ := extends_.of_cons
      obtain ⟨_, _, rfl, behind⟩ := inner.of_cons
      obtain ⟨rest', read', others'⟩ := ih readOthers behind
      exact ⟨rest', by simp [members, read', Except.map], others'⟩
  | case2 => cases read
  | case3 => cases read
  | case4 offset key name known offset' others ih =>
      obtain ⟨⟨names', rest⟩, readOthers, eq⟩ := map_eq_ok.1 read
      cases eq
      obtain ⟨_, _, rfl, inner⟩ := extends_.of_cons
      obtain ⟨_, _, rfl, closing⟩ := inner.of_cons
      obtain ⟨_, _, rfl, behind⟩ := closing.of_cons
      obtain ⟨rest', read', others'⟩ := ih readOthers behind
      exact ⟨rest', by simp [members, known, read', Except.map], others'⟩
  | case5 => cases read
  | case6 => cases read
  | case7 tokens noDot noField noKey noBracket =>
      cases read
      refine ⟨tokens', members_stop ?_, extends_⟩
      intro t head
      cases tokens with
      | nil =>
          obtain rfl := extends_.of_nil
          rcases token_of_isSeparator (ends t head) with eq | eq <;> rw [eq] <;> simp
      | cons first rest =>
          obtain ⟨t', offset⟩ := first
          obtain ⟨offset', rest', rfl, -⟩ := extends_.of_cons
          cases head
          exact next_of_stop noField noKey noBracket ⟨t', offset⟩ rfl

theorem word_extends {name : String} {rest : List Located} {e : Expression}
    (read : word name tokens = .ok (e, rest)) (extends_ : Extends more tokens tokens') :
    ∃ rest', word name tokens' = .ok (e, rest') ∧ Extends more rest rest' := by
  unfold word at read ⊢
  split at read
  · cases read
    exact ⟨tokens', rfl, extends_⟩
  · cases read
    exact ⟨tokens', rfl, extends_⟩
  · cases read
    exact ⟨tokens', rfl, extends_⟩
  · cases read
    exact ⟨tokens', rfl, extends_⟩
  · split at read
    · cases read
    · cases read
    · rename_i found
      cases read
      obtain ⟨rest', found', others⟩ := members_extends ends found extends_
      exact ⟨rest', by simp [found'], others⟩
  · obtain ⟨⟨names, rest⟩, found, eq⟩ := map_eq_ok.1 read
    cases eq
    obtain ⟨rest', found', others⟩ := members_extends ends found extends_
    exact ⟨rest', by simp [found', Except.map], others⟩

theorem atom_extends {room : Nat} {rest : List Located} {e : Expression}
    (noPrefix : prefixOp? tokens = none) (read : atom tokens = .ok (e, rest))
    (extends_ : Extends more tokens tokens') :
    ∃ rest', operand prefixing room tokens' = .ok (e, rest') ∧ Extends more rest rest' := by
  have noPrefix' := prefixOp?_none_extends ends noPrefix extends_
  unfold atom at read
  split at read
  · cases read
    obtain ⟨offset, rest', rfl, others⟩ := extends_.of_cons
    exact ⟨rest', by rw [operand_atom noPrefix' (by simp), atom], others⟩
  · cases read
    obtain ⟨offset, rest', rfl, others⟩ := extends_.of_cons
    exact ⟨rest', by rw [operand_atom noPrefix' (by simp), atom], others⟩
  · obtain ⟨offset, rest', rfl, behind⟩ := extends_.of_cons
    obtain ⟨rest', read', others⟩ := word_extends ends read behind
    exact ⟨rest', by rw [operand_atom noPrefix' (by simp), atom, read'], others⟩
  · cases read

/-- What is read is read again when its tokens stand elsewhere and a separator follows. -/
theorem operand_climb_extends (room : Nat) :
    (∀ {tokens e rest}, operand prefixing room tokens = .ok (e, rest) →
      ∀ {tokens'}, Extends more tokens tokens' →
      ∃ rest', operand prefixing room tokens' = .ok (e, rest') ∧ Extends more rest rest') ∧
    (∀ {least left tokens e rest}, climb prefixing room least left tokens = .ok (e, rest) →
      ∀ {tokens'}, Extends more tokens tokens' →
      ∃ rest', climb prefixing room least left tokens' = .ok (e, rest') ∧
        Extends more rest rest') := by
  refine ok_induction
    (fun room tokens e rest => ∀ {tokens'}, Extends more tokens tokens' →
      ∃ rest', operand prefixing room tokens' = .ok (e, rest') ∧ Extends more rest rest')
    (fun room least left tokens e rest => ∀ {tokens'}, Extends more tokens tokens' →
      ∃ rest', climb prefixing room least left tokens' = .ok (e, rest') ∧ Extends more rest rest')
    ?ofAtom ?ofPrefix ?ofParens ?ofStop ?ofStep room
  case ofAtom =>
    intro room tokens e rest noPrefix read tokens' extends_
    exact atom_extends ends noPrefix read extends_
  case ofPrefix =>
    intro room tokens op behind e rest found ih tokens' extends_
    obtain ⟨behind', found', others⟩ := prefixOp?_extends found extends_
    obtain ⟨rest', read, others⟩ := ih others
    exact ⟨rest', by rw [operand_prefixed found', read]; rfl, others⟩
  case ofParens =>
    intro room offset behind first middle e offset' rest ihFirst ihChain tokens' extends_
    obtain ⟨_, behind', rfl, others⟩ := extends_.of_cons
    obtain ⟨middle', read, others⟩ := ihFirst others
    obtain ⟨onward, climbed, others⟩ := ihChain others
    obtain ⟨_, rest', rfl, behind⟩ := others.of_cons
    refine ⟨rest', ?_, behind⟩
    rw [operand_openParen, chain_eq_ok.2 ⟨_, _, read, climbed⟩]
    rfl
  case ofStop =>
    intro room least left tokens stops tokens' extends_
    exact ⟨tokens', climb_stop (infixOp?_none_extends ends stops extends_), extends_⟩
  case ofStep =>
    intro room least left tokens op behind first middle right onward e rest found ihFirst ihRight
      ihRest tokens' extends_
    obtain ⟨behind', found', others⟩ := infixOp?_extends found extends_
    obtain ⟨middle', read, others⟩ := ihFirst others
    obtain ⟨onward', climbed, others⟩ := ihRight others
    obtain ⟨rest', extended, others⟩ := ihRest others
    refine ⟨rest', ?_, others⟩
    rw [climb_step found', chain_eq_ok.2 ⟨_, _, read, climbed⟩]
    exact extended

theorem expression_extends {room : Nat} {rest : List Located} {e : Expression}
    (read : expression prefixing room tokens = .ok (e, rest))
    (extends_ : Extends more tokens tokens') :
    ∃ rest', expression prefixing room tokens' = .ok (e, rest') ∧ Extends more rest rest' := by
  cases room with
  | zero => cases read
  | succ room =>
      obtain ⟨first, middle, read, climbed⟩ := chain_eq_ok.1 read
      obtain ⟨middle', read', others⟩ := (operand_climb_extends ends room).1 read extends_
      obtain ⟨rest', climbed', others⟩ := (operand_climb_extends ends room).2 climbed others
      exact ⟨rest', chain_eq_ok.2 ⟨_, _, read', climbed'⟩, others⟩

theorem statement_extends {rest : List Located} {s : Statement}
    (read : statement prefixing tokens = .ok (s, rest)) (extends_ : Extends more tokens tokens') :
    ∃ rest', statement prefixing tokens' = .ok (s, rest') ∧ Extends more rest rest' := by
  rcases statement_eq_ok.1 read with ⟨target, value, _, middle, rfl, read, assigned⟩ |
    ⟨e, rfl, read, bare⟩
  · obtain ⟨_, read', others⟩ := expression_extends ends read extends_
    obtain ⟨_, middle', rfl, behind⟩ := others.of_cons
    obtain ⟨rest', assigned', others'⟩ := expression_extends ends assigned behind
    exact ⟨rest', statement_eq_ok.2 (.inl ⟨target, value, _, middle', rfl, read', assigned'⟩),
      others'⟩
  · obtain ⟨rest', read', others⟩ := expression_extends ends read extends_
    refine ⟨rest', statement_eq_ok.2 (.inr ⟨e, rfl, read', fun t head => ?_⟩), others⟩
    match rest with
    | [] =>
        obtain rfl := others.of_nil
        rcases token_of_isSeparator (ends t head) with eq | eq <;> rw [eq] <;> simp
    | t' :: rest =>
        obtain ⟨_, behind, rfl, -⟩ := others.of_cons
        cases head
        exact bare t' rfl

/-- The statements of some tokens, wherever they stand, come before those behind a separator. -/
theorem statements_append {front : List Located} {list : List Statement}
    (read : statements prefixing tokens = .ok list)
    (same : front.map Located.token = tokens.map Located.token) :
    statements prefixing (front ++ more) = (statements prefixing more).map (list ++ ·) := by
  have unchanged : ∀ result : Except ParseError (List Statement), result.map ([] ++ ·) = result :=
    fun result => by cases result <;> rfl
  refine statements_ok_induction (fun tokens list => ∀ {front : List Located},
    front.map Located.token = tokens.map Located.token →
    statements prefixing (front ++ more) = (statements prefixing more).map (list ++ ·))
    ?ofNil ?ofSeparator ?ofLast ?ofStatement read same
  case ofNil =>
    intro front same
    rw [List.map_eq_nil_iff.1 same, List.nil_append, unchanged]
  case ofSeparator =>
    intro t rest list separates ih front same
    obtain ⟨offset, behind, rfl, others⟩ := map_token_eq_cons same
    have separates' : isSeparator ⟨t.token, offset⟩ = true := separates
    rw [List.cons_append, statements_separator separates', ih others]
  case ofLast =>
    intro t rest s starts read front same
    obtain ⟨offset, behind, rfl, others⟩ := map_token_eq_cons same
    have starts' : isSeparator ⟨t.token, offset⟩ = false := starts
    obtain ⟨rest', read', leftover⟩ := statement_extends ends read ⟨_, same, rfl⟩
    obtain rfl := leftover.of_nil
    rw [List.cons_append] at read' ⊢
    rw [statements_statement starts', read']
    match rest' with
    | [] =>
        rw [statements]
        rfl
    | next :: behind =>
        have separates := ends next rfl
        rw [statements_separator separates]
        exact if_pos separates
  case ofStatement =>
    intro t rest s next behind list starts read separates ih front same
    obtain ⟨offset, behind', rfl, others⟩ := map_token_eq_cons same
    have starts' : isSeparator ⟨t.token, offset⟩ = false := starts
    obtain ⟨rest', read', leftover⟩ := statement_extends ends read ⟨_, same, rfl⟩
    obtain ⟨offset', onward, rfl, last, others, rfl⟩ := leftover.of_cons
    have separates' : isSeparator ⟨next.token, offset'⟩ = true := separates
    rw [List.cons_append] at read' ⊢
    rw [statements_statement starts', read']
    simp only [bind, Except.bind]
    rw [if_pos separates', ih others]
    cases statements prefixing more <;> rfl

end Ends

/-- The statements do not depend on where their tokens stand. -/
theorem statements_congr {list : List Statement} (read : statements prefixing tokens = .ok list)
    (same : tokens'.map Located.token = tokens.map Located.token) :
    statements prefixing tokens' = .ok list := by
  have ends : ∀ t ∈ ([] : List Located).head?, isSeparator t = true := by simp
  have := statements_append ends read same
  rw [List.append_nil, statements] at this
  simpa [Except.map] using this

end Parser

/-- The characters that separate statements, with their tokens. -/
def Lexer.separators : List (Char × Token) := [('\n', .newline), (';', .semicolon)]

theorem Lexer.tokens_separator {c : Char} {t : Token} (known : (c, t) ∈ separators)
    (offset : Nat) (text : List Char) :
    tokens offset (c :: text) =
      (tokens (offset + width [c]) text).map ([Located.mk t offset] ++ ·) := by
  have read : scan offset c text = .ok ⟨[c], some t, text⟩ := by
    simp only [separators, List.mem_cons, Prod.mk.injEq, List.not_mem_nil, or_false] at known
    rcases known with ⟨rfl, rfl⟩ | ⟨rfl, rfl⟩ <;> rfl
  exact tokens_cons read

/-- Behind a text and a separator another text is read as on its own: its statements come behind
    those of the first text, and if it has none, because it is no list of statements, neither has
    the whole. -/
theorem Statement.parseAll_join_iff {a b : String} {c : Char} {t : Token}
    {front list : List Statement} (known : (c, t) ∈ Lexer.separators)
    (readFront : parseAll a = .ok front) :
    parseAll (a ++ String.singleton c ++ b) = .ok list ↔
      ∃ behind, parseAll b = .ok behind ∧ list = front ++ behind := by
  obtain ⟨first, foundFirst, readFirst⟩ := Parser.bind_eq_ok.1 readFront
  have separates : Lexer.ends c = true ∧ ∀ offset, Parser.isSeparator ⟨t, offset⟩ = true := by
    simp only [Lexer.separators, List.mem_cons, Prod.mk.injEq, List.not_mem_nil, or_false] at known
    rcases known with ⟨rfl, rfl⟩ | ⟨rfl, rfl⟩ <;> exact ⟨rfl, fun _ => rfl⟩
  have text : (a ++ String.singleton c ++ b).toList = a.toList ++ c :: b.toList := by simp
  rw [parseAll, tokenize, text, Lexer.tokens_append foundFirst (by simpa using separates.1),
    Lexer.tokens_separator known, parseAll]
  generalize 0 + Lexer.width a.toList = offset
  cases found : Lexer.tokens (offset + Lexer.width [c]) b.toList with
  | error e =>
      -- a text that has tokens anywhere has them everywhere
      cases alone : tokenize b with
      | error e' => simp [Except.map, bind, Except.bind]
      | ok second =>
          obtain ⟨located, elsewhere, -⟩ :=
            Lexer.spells_of_tokens alone (offset + Lexer.width [c])
          rw [found] at elsewhere
          cases elsewhere
  | ok second =>
      obtain ⟨located, alone, same⟩ := Lexer.spells_of_tokens found 0
      have separates := separates.2 offset
      have ends : ∀ next ∈ (Located.mk t offset :: second).head?,
          Parser.isSeparator next = true := by simpa using separates
      have joined := Parser.statements_append ends readFirst rfl
      rw [Parser.statements_separator separates] at joined
      have moved (behind) : Parser.statements .folding second = .ok behind ↔
          Parser.statements .folding located = .ok behind :=
        ⟨fun read => Parser.statements_congr read same,
          fun read => Parser.statements_congr read same.symm⟩
      change Parser.statements .folding (first ++ Located.mk t offset :: second) = _ ↔ _
      rw [joined, Parser.map_eq_ok, tokenize, alone]
      simp only [moved, eq_comm (a := list)]
      rfl

end DecisionTable
