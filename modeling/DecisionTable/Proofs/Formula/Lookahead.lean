import DecisionTable.Proofs.Formula.Joining

/-! # What the parser looks at

The parser reads from left to right and looks one token ahead. So it reads the same part again
when other tokens stand behind that part, if they start with the same token or there are none
(`operand_climb_front`).
-/

namespace DecisionTable

open Grammar

namespace Parser

/-- `SameNext rest rest'`: the second list starts with the same token as the first, or is empty. -/
def SameNext (rest rest' : List Located) : Prop := ∀ t ∈ rest'.head?, t ∈ rest.head?

variable {prefixing : Prefixing} {tokens middle rest rest' : List Located}

theorem SameNext.refl (rest : List Located) : SameNext rest rest := fun _ mem => mem

theorem SameNext.cons (t : Located) (rest rest' : List Located) :
    SameNext (t :: rest) (t :: rest') := fun _ mem => mem

theorem SameNext.append (same : SameNext rest rest') (front : List Located) :
    SameNext (front ++ rest) (front ++ rest') := by
  cases front with
  | nil => exact same
  | cons t front => exact .cons t _ _

theorem SameNext.cut (front rest : List Located) : SameNext (front ++ rest) front := by
  cases front with
  | nil => exact fun _ mem => nomatch mem
  | cons t front => exact .cons t _ _

theorem SameNext.infixOp?_eq_none {least : Nat} (same : SameNext rest rest')
    (stops : infixOp? least rest = none) : infixOp? least rest' = none := by
  cases rest' with
  | nil => rfl
  | cons t behind =>
      obtain ⟨others, rfl⟩ := List.head?_eq_some_iff.1 (same t rfl)
      obtain ⟨token, offset⟩ := t
      cases token <;> simp_all [infixOp?]

/-- A part of some tokens is read before `rest`, and is read again when others stand there that
    start alike. -/
def ReadsFront {α : Type} (read : List Located → Except ParseError (Parsed α))
    (tokens : List Located) (a : α) (rest : List Located) : Prop :=
  ∃ front, tokens = front ++ rest ∧
    ∀ rest', SameNext rest rest' → read (front ++ rest') = .ok (a, rest')

/-- Reads a part and then, as it says, what stands behind it. -/
def andThen {α β : Type} (read : List Located → Except ParseError (Parsed α))
    (next : α → List Located → Except ParseError β) (tokens : List Located) :
    Except ParseError β :=
  read tokens >>= fun (a, rest) => next a rest

namespace ReadsFront

variable {α β : Type} {read : List Located → Except ParseError (Parsed α)} {a : α}

theorem nothing (none : ∀ rest', SameNext rest rest' → read rest' = .ok (a, rest')) :
    ReadsFront read rest a rest := ⟨[], rfl, none⟩

theorem token {t : Located} (one : ∀ rest', read (t :: rest') = .ok (a, rest')) :
    ReadsFront read (t :: rest) a rest := ⟨[t], rfl, fun rest' _ => one rest'⟩

theorem cons {read' : List Located → Except ParseError (Parsed α)} {t : Located}
    (reads : ReadsFront read tokens a rest)
    (onward : ∀ tokens', read' (t :: tokens') = read tokens') :
    ReadsFront read' (t :: tokens) a rest := by
  obtain ⟨front, rfl, again⟩ := reads
  exact ⟨t :: front, rfl, fun rest' same => (onward _).trans (again rest' same)⟩

theorem map {read' : List Located → Except ParseError (Parsed β)} (f : α → β)
    (reads : ReadsFront read tokens a rest)
    (maps : ∀ tokens', read' tokens' = (read tokens').map fun (a, rest) => (f a, rest)) :
    ReadsFront read' tokens (f a) rest := by
  obtain ⟨front, rfl, again⟩ := reads
  refine ⟨front, rfl, fun rest' same => ?_⟩
  rw [maps, again rest' same]
  rfl

theorem andThen {next : α → List Located → Except ParseError (Parsed β)} {b : β}
    (reads : ReadsFront read tokens a middle) (behind : ReadsFront (next a) middle b rest) :
    ReadsFront (andThen read next) tokens b rest := by
  obtain ⟨front, rfl, again⟩ := reads
  obtain ⟨front', rfl, again'⟩ := behind
  refine ⟨front ++ front', (List.append_assoc ..).symm, fun rest' same => ?_⟩
  rw [Parser.andThen, List.append_assoc, again _ (same.append front')]
  exact again' rest' same

end ReadsFront

theorem prefixOp?_cons {behind : List Located} {op : PrefixOp}
    (found : prefixOp? tokens = some (op, behind)) :
    ∃ t, tokens = t :: behind ∧ t.token ≠ .openParen ∧
      ∀ tokens', prefixOp? (t :: tokens') = some (op, tokens') := by
  unfold prefixOp? at found
  split at found <;> cases found <;> exact ⟨_, rfl, nofun, fun _ => rfl⟩

theorem members_front {names : List String} (read : members tokens = .ok (names, rest)) :
    ReadsFront members tokens names rest := by
  fun_induction members tokens generalizing names rest with
  | case1 offset name offset' others ih =>
      obtain ⟨⟨names', rest⟩, readOthers, eq⟩ := map_eq_ok.1 read
      cases eq
      obtain ⟨front, rfl, again⟩ := ih readOthers
      refine ⟨⟨.dot, offset⟩ :: ⟨.word name, offset'⟩ :: front, rfl, fun rest' same => ?_⟩
      simp [members, again rest' same, Except.map]
  | case2 => cases read
  | case3 => cases read
  | case4 offset key name known offset' others ih =>
      obtain ⟨⟨names', rest⟩, readOthers, eq⟩ := map_eq_ok.1 read
      cases eq
      obtain ⟨front, rfl, again⟩ := ih readOthers
      refine ⟨⟨.openBracket, offset⟩ :: key :: ⟨.closeBracket, offset'⟩ :: front, rfl,
        fun rest' same => ?_⟩
      simp [members, known, again rest' same, Except.map]
  | case5 => cases read
  | case6 => cases read
  | case7 tokens noDot noField noKey noBracket =>
      cases read
      refine .nothing fun rest' same => members_stop fun t head => ?_
      exact next_of_stop noField noKey noBracket t (same t head)

/-- The field that the members of `this` name. -/
def fieldOfThis (names : List String) (rest : List Located) :
    Except ParseError (Parsed Expression) :=
  match names with
  | [] => .error (unexpected .memberOfThis rest)
  | first :: others => .ok (.field ⟨first, others⟩, rest)

theorem word_this : word "this" = andThen members fieldOfThis := by
  funext tokens
  unfold word andThen
  dsimp only
  rcases members tokens with _ | ⟨_ | _, _⟩ <;> rfl

theorem word_front {name : String} {e : Expression} (read : word name tokens = .ok (e, rest)) :
    ReadsFront (word name) tokens e rest := by
  by_cases constant : name ∈ constants.map Prod.fst
  · obtain ⟨⟨_, value⟩, known, rfl⟩ := List.mem_map.1 constant
    rw [word_constant known] at read
    cases read
    exact .nothing fun rest' _ => word_constant known rest'
  by_cases this : name = "this"
  · subst this
    rw [word_this] at read ⊢
    obtain ⟨⟨names, middle⟩, found, named⟩ := bind_eq_ok.1 read
    cases names with
    | nil => cases named
    | cons first others =>
        cases named
        exact (members_front found).andThen (.nothing fun _ _ => rfl)
  · rw [word_path constant this] at read
    obtain ⟨⟨others, _⟩, found, eq⟩ := map_eq_ok.1 read
    cases eq
    exact (members_front found).map (fun others => Expression.field ⟨name, others⟩)
      (word_path constant this)

theorem atom_front {room : Nat} {e : Expression} (noPrefix : prefixOp? tokens = none)
    (read : atom tokens = .ok (e, rest)) : ReadsFront (operand prefixing room) tokens e rest := by
  unfold atom at read
  split at read
  · cases read
    exact .token fun _ => operand_atom rfl nofun
  · cases read
    exact .token fun _ => operand_atom rfl nofun
  · exact (word_front read).cons fun _ => operand_atom rfl nofun
  · cases read

/-- What is read is read again before any tokens that start alike. -/
theorem operand_climb_front (room : Nat) :
    (∀ {tokens e rest}, operand prefixing room tokens = .ok (e, rest) →
      ReadsFront (operand prefixing room) tokens e rest) ∧
    (∀ {least left tokens e rest}, climb prefixing room least left tokens = .ok (e, rest) →
      ReadsFront (climb prefixing room least left) tokens e rest) := by
  refine ok_induction (fun room => ReadsFront (operand prefixing room))
    (fun room least left => ReadsFront (climb prefixing room least left))
    ?ofAtom ?ofPrefix ?ofParens ?ofStop ?ofStep room
  case ofAtom =>
    intro room tokens e rest noPrefix read
    exact atom_front noPrefix read
  case ofPrefix =>
    intro room tokens op behind e rest found ih
    obtain ⟨t, rfl, -, again⟩ := prefixOp?_cons found
    exact (ih.map (prefixing op) fun _ => rfl).cons fun _ => operand_prefixed (again _)
  case ofParens =>
    intro room offset behind first middle e offset' rest ihFirst ihChain
    -- Behind the closing parenthesis no token is looked at.
    have closes : ReadsFront (closing e) (⟨.closeParen, offset'⟩ :: rest) e rest :=
      .token fun _ => rfl
    have inside : ReadsFront (chain prefixing room 1) behind e (⟨.closeParen, offset'⟩ :: rest) :=
      ihFirst.andThen ihChain
    exact (inside.andThen closes).cons fun _ => operand_openParen
  case ofStop =>
    intro room least left tokens stops
    exact .nothing fun rest' same => climb_stop (same.infixOp?_eq_none stops)
  case ofStep =>
    intro room least left tokens op behind first middle right onward e rest found ihFirst ihRight
      ihRest
    obtain ⟨low, offset, rfl⟩ := infixOp?_eq_some.1 found
    have onRight : ReadsFront (chain prefixing room (op.precedence + 1)) behind right onward :=
      ihFirst.andThen ihRight
    have reads : ReadsFront (Parser.andThen (chain prefixing room (op.precedence + 1)) fun right =>
        climb prefixing room least (.infixed op left right)) behind e rest := onRight.andThen ihRest
    exact reads.cons fun tokens' => climb_step (infixOp?_eq_some.2 ⟨low, offset, rfl⟩)

theorem chain_front {room least : Nat} {e : Expression}
    (read : chain prefixing room least tokens = .ok (e, rest)) :
    ReadsFront (chain prefixing room least) tokens e rest := by
  obtain ⟨first, middle, read, climbed⟩ := chain_eq_ok.1 read
  exact ((operand_climb_front room).1 read).andThen ((operand_climb_front room).2 climbed)

theorem expression_front {room : Nat} {e : Expression}
    (read : expression prefixing room tokens = .ok (e, rest)) :
    ReadsFront (expression prefixing room) tokens e rest := by
  cases room with
  | zero => cases read
  | succ room => exact chain_front read

theorem statement_front {s : Statement} (read : statement prefixing tokens = .ok (s, rest)) :
    ReadsFront (statement prefixing) tokens s rest := by
  rcases statement_eq_ok.1 read with ⟨target, value, offset, middle, rfl, read, assigned⟩ |
    ⟨e, rfl, read, bare⟩
  · obtain ⟨front, rfl, again⟩ := expression_front read
    obtain ⟨front', rfl, again'⟩ := expression_front assigned
    refine ⟨front ++ ⟨.assign, offset⟩ :: front', by simp, fun rest' same => ?_⟩
    rw [List.append_assoc, List.cons_append]
    exact statement_eq_ok.2
      (.inl ⟨target, value, offset, _, rfl, again _ (.cons _ _ _), again' _ same⟩)
  · obtain ⟨front, rfl, again⟩ := expression_front read
    refine ⟨front, rfl, fun rest' same => statement_eq_ok.2 (.inr ⟨e, rfl, again _ same, ?_⟩)⟩
    exact fun t head => bare t (same t head)

end Parser

end DecisionTable
