import DecisionTable.Formula.Lexer

/-! # Parsing formulas

Operators are parsed by climbing their precedence: `operand` reads what stands between two
operators, and `climb` extends a left side by the operators that bind at least as tightly as
asked. Both recurse over `room`, the levels of nesting still allowed. A parenthesis and a
prefix operator take one level for what they enclose. Each operator of a chain takes one
level for its right side and for the rest of the chain.

The parser does not decide what a prefix operator makes of its operand: `Prefixing` says
that, and `Prefixing.folding` is the one in use.
-/

namespace DecisionTable

/-- How a prefix operator and its operand make an expression. -/
abbrev Prefixing := PrefixOp → Expression → Expression

namespace Prefixing

/-- The operator is kept. -/
def plain : Prefixing := Expression.prefixed

/-- A minus before a number literal makes the opposite literal, so `-3` is a literal. -/
def folding : Prefixing
  | .negate, .literal (.number n) => .literal (Json.ofBinary64 (-n.toBinary64))
  | op, operand => .prefixed op operand

end Prefixing

namespace Parser

/-- A parsed part and the tokens behind it. -/
abbrev Parsed (α : Type) := α × List Located

/-- The offset of the next token; zero at the end. -/
def offsetOf : List Located → Nat
  | [] => 0
  | t :: _ => t.offset

/-- The error for a next token that is not what was looked for. -/
def unexpected (expected : Expected) : List Located → ParseError
  | [] => .unexpectedEnd expected
  | t :: _ => .unexpected t.token expected t.offset

/-- The member name that a token in brackets stands for. Whole numbers stop at the largest one
    of 64 bits. -/
def memberKey? : Token → Option String
  | .string key => some key
  | .number x => x.wholeNat?.map fun n => toString (min n (UInt64.size - 1))
  | _ => none

/-- Reads the members behind the head of a path: `.name`, `['name']` or `[0]`. -/
def members : List Located → Except ParseError (Parsed (List String))
  | ⟨.dot, _⟩ :: ⟨.word name, _⟩ :: rest =>
    (members rest).map fun (names, rest) => (name :: names, rest)
  | ⟨.dot, _⟩ :: rest => .error (unexpected .fieldName rest)
  | ⟨.openBracket, _⟩ :: key :: rest =>
    match memberKey? key.token with
    | none => .error (unexpected .stringOrIndex (key :: rest))
    | some name =>
      match rest with
      | ⟨.closeBracket, _⟩ :: rest =>
        (members rest).map fun (names, rest) => (name :: names, rest)
      | rest => .error (unexpected .closeBracket rest)
  | [⟨.openBracket, _⟩] => .error (unexpected .stringOrIndex [])
  | rest => .ok ([], rest)

/-- Reads a path or a constant at its first word. -/
def word (name : String) (rest : List Located) : Except ParseError (Parsed Expression) :=
  match name with
  | "true" => .ok (.literal (.bool true), rest)
  | "false" => .ok (.literal (.bool false), rest)
  | "null" | "undefined" => .ok (.literal .null, rest)
  | "this" =>
    match members rest with
    | .error e => .error e
    | .ok ([], rest) => .error (unexpected .memberOfThis rest)
    | .ok (first :: others, rest) => .ok (.field ⟨first, others⟩, rest)
  | first => (members rest).map fun (others, rest) => (.field ⟨first, others⟩, rest)

/-- Reads an expression without operators and parentheses. -/
def atom : List Located → Except ParseError (Parsed Expression)
  | ⟨.number x, _⟩ :: rest => .ok (.literal (Json.ofBinary64 x), rest)
  | ⟨.string text, _⟩ :: rest => .ok (.literal (.string text), rest)
  | ⟨.word name, _⟩ :: rest => word name rest
  | tokens => .error (unexpected .expression tokens)

/-- The prefix operator that starts a list of tokens. -/
def prefixOp? : List Located → Option (PrefixOp × List Located)
  | ⟨.bang, _⟩ :: rest => some (.not, rest)
  | ⟨.operator .sub, _⟩ :: rest => some (.negate, rest)
  | _ => none

/-- The infix operator that starts a list of tokens, if it binds at least as tightly as asked. -/
def infixOp? (least : Nat) : List Located → Option (InfixOp × List Located)
  | ⟨.operator op, _⟩ :: rest => if least ≤ op.precedence then some (op, rest) else none
  | _ => none

/-- Reads the token that must close a parenthesis behind an expression. -/
def closing (e : Expression) : List Located → Except ParseError (Parsed Expression)
  | ⟨.closeParen, _⟩ :: rest => .ok (e, rest)
  | rest => .error (unexpected .closeParen rest)

mutual

/-- Reads what stands between two infix operators. -/
def operand (prefixing : Prefixing) (room : Nat) (tokens : List Located) :
    Except ParseError (Parsed Expression) :=
  match prefixOp? tokens with
  | some (op, rest) =>
    match room with
    | 0 => .error (.tooDeep (offsetOf tokens))
    | room + 1 => do
      let (e, rest) ← operand prefixing room rest
      .ok (prefixing op e, rest)
  | none =>
    match tokens with
    | ⟨.openParen, _⟩ :: rest =>
      match room with
      | 0 => .error (.tooDeep (offsetOf rest))
      | room + 1 => do
        let (first, rest) ← operand prefixing room rest
        let (e, rest) ← climb prefixing room 1 first rest
        closing e rest
    | tokens => atom tokens
termination_by structural room

/-- Extends a left side by the operators behind it that bind at least as tightly as asked. -/
def climb (prefixing : Prefixing) (room : Nat) (least : Nat) (left : Expression)
    (tokens : List Located) : Except ParseError (Parsed Expression) :=
  match infixOp? least tokens with
  | none => .ok (left, tokens)
  | some (op, rest) =>
    match room with
    | 0 => .error (.tooDeep (offsetOf tokens))
    | room + 1 => do
      let (first, rest) ← operand prefixing room rest
      let (right, rest) ← climb prefixing room (op.precedence + 1) first rest
      climb prefixing room least (.infixed op left right) rest
termination_by structural room

end

/-- Reads an expression, which takes one level itself. -/
def expression (prefixing : Prefixing) (room : Nat) (tokens : List Located) :
    Except ParseError (Parsed Expression) :=
  match room with
  | 0 => .error (.tooDeep (offsetOf tokens))
  | room + 1 => do
    let (first, rest) ← operand prefixing room tokens
    climb prefixing room 1 first rest

/-- Reads one statement. Only a field can be assigned to. -/
def statement (prefixing : Prefixing) (tokens : List Located) :
    Except ParseError (Parsed Statement) := do
  let (left, rest) ← expression prefixing maxDepth tokens
  match rest with
  | ⟨.assign, _⟩ :: rest =>
    match left with
    | .field target =>
      let (value, rest) ← expression prefixing maxDepth rest
      .ok (.assign target value, rest)
    | _ => .error (.invalidTarget (offsetOf tokens))
  | rest => .ok (.bare left, rest)

theorem bind_eq_ok {ε α β : Type} {x : Except ε α} {f : α → Except ε β} {b : β} :
    (x >>= f) = .ok b ↔ ∃ a, x = .ok a ∧ f a = .ok b := by
  cases x <;> simp [bind, Except.bind]

theorem map_eq_ok {ε α β : Type} {x : Except ε α} {f : α → β} {b : β} :
    x.map f = .ok b ↔ ∃ a, x = .ok a ∧ f a = b := by
  cases x <;> simp [Except.map]

theorem bind_eq_error {ε α β : Type} {x : Except ε α} {f : α → Except ε β} {e : ε} :
    (x >>= f) = .error e ↔ x = .error e ∨ ∃ a, x = .ok a ∧ f a = .error e := by
  cases x <;> simp [bind, Except.bind]

theorem map_eq_error {ε α β : Type} {x : Except ε α} {f : α → β} {e : ε} :
    x.map f = .error e ↔ x = .error e := by
  cases x <;> simp [Except.map]

theorem members_length {tokens rest : List Located} {names : List String}
    (h : members tokens = .ok (names, rest)) : rest.length ≤ tokens.length := by
  fun_induction members tokens generalizing names rest with
  | case1 _ _ _ _ ih =>
      obtain ⟨⟨_, _⟩, read, eq⟩ := map_eq_ok.1 h
      have := ih read
      simp_all
      omega
  | case2 => simp at h
  | case3 => simp at h
  | case4 _ _ _ _ _ _ ih =>
      obtain ⟨⟨_, _⟩, read, eq⟩ := map_eq_ok.1 h
      have := ih read
      simp_all
      omega
  | case5 => simp at h
  | case6 => simp at h
  | case7 => simp_all

theorem word_length {name : String} {tokens rest : List Located} {e : Expression}
    (h : word name tokens = .ok (e, rest)) : rest.length ≤ tokens.length := by
  unfold word at h
  split at h
  · simp_all
  · simp_all
  · simp_all
  · simp_all
  · split at h
    · cases h
    · cases h
    · rename_i read
      cases h
      exact members_length read
  · obtain ⟨⟨_, _⟩, read, eq⟩ := map_eq_ok.1 h
    cases eq
    exact members_length read

theorem atom_length {tokens rest : List Located} {e : Expression}
    (h : atom tokens = .ok (e, rest)) : rest.length < tokens.length := by
  unfold atom at h
  split at h
  · cases h; simp
  · cases h; simp
  · have := word_length h
    simp only [List.length_cons]
    omega
  · cases h

theorem prefixOp?_length {tokens rest : List Located} {op : PrefixOp}
    (h : prefixOp? tokens = some (op, rest)) : rest.length < tokens.length := by
  unfold prefixOp? at h
  split at h <;> cases h <;> simp

theorem infixOp?_length {least : Nat} {tokens rest : List Located} {op : InfixOp}
    (h : infixOp? least tokens = some (op, rest)) : rest.length < tokens.length := by
  unfold infixOp? at h
  split at h
  · split at h
    · cases h; simp
    · cases h
  · cases h

theorem closing_length {tokens rest : List Located} {e e' : Expression}
    (h : closing e tokens = .ok (e', rest)) : rest.length < tokens.length := by
  unfold closing at h
  split at h <;> cases h
  simp

/-- At a given room, what is parsed has at least one token, and nothing is put back. -/
theorem operand_climb_length (prefixing : Prefixing) (room : Nat) :
    (∀ {tokens rest e}, operand prefixing room tokens = .ok (e, rest) →
      rest.length < tokens.length) ∧
    (∀ {least left tokens rest e}, climb prefixing room least left tokens = .ok (e, rest) →
      rest.length ≤ tokens.length) := by
  induction room with
  | zero =>
      constructor
      · intro tokens rest e h
        unfold operand at h
        split at h
        · cases h
        · split at h
          · cases h
          · exact atom_length h
      · intro least left tokens rest e h
        unfold climb at h
        split at h
        · cases h; exact Nat.le_refl _
        · cases h
  | succ room ih =>
      constructor
      · intro tokens rest e h
        unfold operand at h
        split at h
        · rename_i found
          obtain ⟨⟨_, _⟩, read, eq⟩ := bind_eq_ok.1 h
          cases eq
          exact Nat.lt_trans (ih.1 read) (prefixOp?_length found)
        · split at h
          · obtain ⟨⟨_, _⟩, first, h⟩ := bind_eq_ok.1 h
            obtain ⟨⟨_, _⟩, inner, h⟩ := bind_eq_ok.1 h
            have := ih.1 first
            have := ih.2 inner
            have := closing_length h
            simp only [List.length_cons]
            omega
          · exact atom_length h
      · intro least left tokens rest e h
        unfold climb at h
        split at h
        · cases h; exact Nat.le_refl _
        · rename_i found
          obtain ⟨⟨_, _⟩, first, h⟩ := bind_eq_ok.1 h
          obtain ⟨⟨_, _⟩, right, h⟩ := bind_eq_ok.1 h
          have := infixOp?_length found
          have := ih.1 first
          have := ih.2 right
          have := ih.2 h
          omega

theorem expression_length {prefixing : Prefixing} {room : Nat} {tokens rest : List Located}
    {e : Expression} (h : expression prefixing room tokens = .ok (e, rest)) :
    rest.length < tokens.length := by
  unfold expression at h
  split at h
  · cases h
  · obtain ⟨⟨_, _⟩, first, h⟩ := bind_eq_ok.1 h
    have := (operand_climb_length prefixing _).1 first
    have := (operand_climb_length prefixing _).2 h
    omega

theorem statement_length {prefixing : Prefixing} {tokens rest : List Located} {s : Statement}
    (h : statement prefixing tokens = .ok (s, rest)) : rest.length < tokens.length := by
  obtain ⟨⟨_, _⟩, left, h⟩ := bind_eq_ok.1 h
  have := expression_length left
  dsimp only at h
  split at h
  · split at h
    · obtain ⟨⟨_, _⟩, value, h⟩ := bind_eq_ok.1 h
      have := expression_length value
      cases h
      simp_all
      omega
    · cases h
  · cases h
    assumption

/-- Whether a token separates statements. -/
def isSeparator (t : Located) : Bool := t.token == .semicolon || t.token == .newline

/-- Reads statements to the end of the tokens, with separators between and around them. -/
def statements (prefixing : Prefixing) (tokens : List Located) :
    Except ParseError (List Statement) :=
  match tokens with
  | [] => .ok []
  | t :: rest =>
    if isSeparator t then
      statements prefixing rest
    else
      match h : statement prefixing (t :: rest) with
      | .error e => .error e
      | .ok (s, behind) =>
        have := statement_length h
        match behind with
        | [] => .ok [s]
        | next :: behind =>
          if isSeparator next then (statements prefixing behind).map (s :: ·)
          else .error (.unexpected next.token .endOfStatement next.offset)
termination_by tokens.length
decreasing_by
  · simp
  · simp only [List.length_cons] at *
    omega

end Parser

namespace Expression

/-- Parses the tokens of an expression. Line breaks mean nothing in it. -/
def ofTokens (prefixing : Prefixing) (tokens : List Located) : Except ParseError Expression :=
  match tokens.filter (·.token != .newline) with
  | [] => .error .empty
  | tokens =>
    match Parser.expression prefixing maxDepth tokens with
    | .error e => .error e
    | .ok (e, []) => .ok e
    | .ok (_, rest) => .error (Parser.unexpected .endOfExpression rest)

/-- Parses a text as an expression. -/
def parse (text : String) : Except ParseError Expression :=
  tokenize text >>= ofTokens .folding

end Expression

namespace Statement

/-- Parses a text as statements. A blank text has none. -/
def parseAll (text : String) : Except ParseError (List Statement) :=
  tokenize text >>= Parser.statements .folding

end Statement

end DecisionTable
