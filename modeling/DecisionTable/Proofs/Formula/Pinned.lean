import DecisionTable.Proofs.Formula.Folding
import DecisionTable.Proofs.Formula.Lookahead

/-! # Failing runs of the parser

Readers that fail name one of the tokens they were given. Those that find the tokens nested too
deeply have passed as many of them as there are levels (`Parser.expression_pinned`), and a statement
that assigns to no field starts behind whole statements (`Parser.statements_explains`).
-/

namespace DecisionTable

namespace Parser

variable {prefixing : Prefixing} {tokens part : List Located} {e : ParseError} {α β : Type}
  {read : List Located → Except ParseError α} {depth : Nat}

/-- `Pinned read depth tokens e`: the error that a reader gives for some tokens names one of them.
    Where the nesting is too deep, `depth` tokens stand before the one that goes too deep, and the
    reader gives up there whatever is behind. An operator is named itself. Of a parenthesis the
    token behind it is named, and without the parenthesis the reader would have asked for more. -/
inductive Pinned (read : List Located → Except ParseError α) (depth : Nat) :
    List Located → ParseError → Prop
  | unexpected {tokens rest : List Located} (expected : Expected) (part : rest ⊆ tokens) :
      Pinned read depth tokens (Parser.unexpected expected rest)
  | operator {before : List Located} {t : Located} (rest : List Located)
      (long : depth ≤ before.length) (other : t.token ≠ .openParen)
      (again : ∀ rest', read (before ++ t :: rest') = .error (.tooDeep t.offset)) :
      Pinned read depth (before ++ t :: rest) (.tooDeep t.offset)
  | parenthesis {before : List Located} {offset : Nat} (rest : List Located)
      (long : depth ≤ before.length)
      (again : ∀ rest', read (before ++ ⟨.openParen, offset⟩ :: rest') =
        .error (.tooDeep (offsetOf rest')))
      (without : read before = .error (.unexpectedEnd .expression)) :
      Pinned read depth (before ++ ⟨.openParen, offset⟩ :: rest) (.tooDeep (offsetOf rest))

namespace Pinned

theorem lift {read' : List Located → Except ParseError β} {depth' : Nat} (front : List Located)
    (pinned : Pinned read depth part e) (enough : depth' ≤ front.length + depth)
    (lifts : ∀ part' e, SameNext part part' → depth ≤ part'.length → read part' = .error e →
      read' (front ++ part') = .error e) :
    Pinned read' depth' (front ++ part) e := by
  cases pinned with
  | unexpected expected within =>
      exact .unexpected expected (List.subset_append_of_subset_right front within)
  | @operator before t rest long other again =>
      rw [← List.append_assoc]
      refine .operator rest (by rw [List.length_append]; omega) other fun rest' => ?_
      rw [List.append_assoc]
      refine lifts _ _ (.append (.cons t rest rest') before) ?_ (again rest')
      exact Nat.le_trans long (by simp)
  | @parenthesis before offset rest long again without =>
      rw [← List.append_assoc]
      refine .parenthesis rest (by rw [List.length_append]; omega) (fun rest' => ?_) ?_
      · rw [List.append_assoc]
        refine lifts _ _ (.append (.cons _ rest rest') before) ?_ (again rest')
        exact Nat.le_trans long (by simp)
      · exact lifts _ _ (.cut before _) long without

theorem first_operator {t : Located} (rest : List Located) (other : t.token ≠ .openParen)
    (again : ∀ rest', read (t :: rest') = .error (.tooDeep t.offset)) :
    Pinned read 0 (t :: rest) (.tooDeep t.offset) := by
  rw [← List.nil_append (t :: rest)]
  exact .operator rest (Nat.zero_le _) other again

theorem first_parenthesis {offset : Nat} (rest : List Located)
    (again : ∀ rest', read (⟨.openParen, offset⟩ :: rest') = .error (.tooDeep (offsetOf rest')))
    (without : read [] = .error (.unexpectedEnd .expression)) :
    Pinned read 0 (⟨.openParen, offset⟩ :: rest) (.tooDeep (offsetOf rest)) := by
  rw [← List.nil_append (_ :: rest)]
  exact .parenthesis rest (Nat.zero_le _) again without

theorem cons {read' : List Located → Except ParseError β} {t : Located}
    (pinned : Pinned read depth part e)
    (onward : ∀ part' e, read part' = .error e → read' (t :: part') = .error e) :
    Pinned read' (depth + 1) (t :: part) e :=
  pinned.lift [t] (Nat.le_of_eq (Nat.add_comm ..)) fun part' e _ _ failed => onward part' e failed

theorem first {read : List Located → Except ParseError (Parsed α)}
    (pinned : Pinned read depth tokens e)
    (next : α → List Located → Except ParseError β) : Pinned (andThen read next) depth tokens e :=
  pinned.lift [] (by simp) fun part' e _ _ failed => by rw [List.nil_append, andThen, failed]; rfl

theorem second {read : List Located → Except ParseError (Parsed α)}
    {next : α → List Located → Except ParseError β} {a : α} {rest : List Located}
    (reads : ReadsFront read tokens a rest) (pinned : Pinned (next a) depth rest e) :
    Pinned (andThen read next) depth tokens e := by
  obtain ⟨front, rfl, again⟩ := reads
  refine pinned.lift front (Nat.le_add_left ..) fun part' e same _ failed => ?_
  rw [andThen, again part' same]
  exact failed

end Pinned

/-! ## Operands -/

theorem members_error (failed : members tokens = .error e) :
    ∃ expected rest, rest ⊆ tokens ∧ e = unexpected expected rest := by
  fun_induction members tokens with
  | case1 offset name offset' others ih =>
      obtain ⟨expected, rest, part, rfl⟩ := ih (map_eq_error.1 failed)
      exact ⟨expected, rest, fun t mem => .tail _ (.tail _ (part mem)), rfl⟩
  | case2 offset rest =>
      cases failed
      exact ⟨_, rest, List.subset_cons_self _ _, rfl⟩
  | case3 offset key rest =>
      cases failed
      exact ⟨_, key :: rest, List.subset_cons_self _ _, rfl⟩
  | case4 offset key name known offset' others ih =>
      obtain ⟨expected, rest, part, rfl⟩ := ih (map_eq_error.1 failed)
      exact ⟨expected, rest, fun t mem => .tail _ (.tail _ (.tail _ (part mem))), rfl⟩
  | case5 offset key name known rest noClose =>
      cases failed
      exact ⟨_, rest, fun t mem => .tail _ (.tail _ mem), rfl⟩
  | case6 =>
      cases failed
      exact ⟨_, [], List.nil_subset _, rfl⟩
  | case7 => cases failed

theorem word_error {name : String} (failed : word name tokens = .error e) :
    ∃ expected rest, rest ⊆ tokens ∧ e = unexpected expected rest := by
  by_cases constant : name ∈ Grammar.constants.map Prod.fst
  · obtain ⟨⟨_, value⟩, known, rfl⟩ := List.mem_map.1 constant
    rw [word_constant known] at failed
    cases failed
  by_cases this : name = "this"
  · subst this
    rw [word_this] at failed
    rcases bind_eq_error.1 failed with failed | ⟨⟨names, rest⟩, read, failed⟩
    · exact members_error failed
    · cases names with
      | nil =>
          cases failed
          obtain ⟨front, rfl, -⟩ := members_front read
          exact ⟨_, rest, List.subset_append_right front rest, rfl⟩
      | cons => cases failed
  · rw [word_path constant this, map_eq_error] at failed
    exact members_error failed

theorem atom_error (failed : atom tokens = .error e) :
    ∃ expected rest, rest ⊆ tokens ∧ e = unexpected expected rest := by
  unfold atom at failed
  split at failed
  · cases failed
  · cases failed
  · obtain ⟨expected, rest, part, rfl⟩ := word_error failed
    exact ⟨expected, rest, List.subset_cons_of_subset _ part, rfl⟩
  · cases failed
    exact ⟨_, tokens, List.Subset.refl _, rfl⟩

theorem atom_pinned (failed : atom tokens = .error e) : Pinned read depth tokens e := by
  obtain ⟨expected, rest, part, rfl⟩ := atom_error failed
  exact .unexpected expected part

theorem closing_pinned {inner : Expression} (failed : closing inner tokens = .error e) :
    Pinned read depth tokens e := by
  unfold closing at failed
  split at failed
  · cases failed
  · cases failed
    exact .unexpected _ (List.Subset.refl _)

/-! ## Expressions -/

variable {room least : Nat} {left : Expression}

theorem operand_zero_pinned (failed : operand prefixing 0 tokens = .error e) :
    Pinned (operand prefixing 0) 0 tokens e := by
  rcases operand_cases tokens with ⟨op, behind, found⟩ | ⟨offset, behind, rfl⟩ | same
  · obtain ⟨t, rfl, other, again⟩ := prefixOp?_cons found
    rw [operand_prefixed_zero found] at failed
    cases failed
    exact .first_operator behind other fun rest' => operand_prefixed_zero (again rest')
  · rw [operand_openParen_zero] at failed
    cases failed
    refine .first_parenthesis behind (fun _ => operand_openParen_zero) ?_
    unfold operand
    rfl
  · rw [same] at failed
    exact atom_pinned failed

theorem climb_zero_pinned (failed : climb prefixing 0 least left tokens = .error e) :
    Pinned (climb prefixing 0 least left) 0 tokens e := by
  cases found : infixOp? least tokens with
  | none =>
      rw [climb_stop found] at failed
      cases failed
  | some next =>
      obtain ⟨op, behind⟩ := next
      obtain ⟨low, offset, rfl⟩ := infixOp?_eq_some.1 found
      rw [climb_zero found] at failed
      cases failed
      exact .first_operator behind nofun fun rest' =>
        climb_zero (infixOp?_eq_some.2 ⟨low, offset, rfl⟩)

/-- With some room, errors are pinned. -/
structure PinnedWithin (prefixing : Prefixing) (room : Nat) : Prop where
  operand : ∀ {tokens e}, operand prefixing room tokens = .error e →
    Pinned (operand prefixing room) room tokens e
  climb : ∀ {least left tokens e}, climb prefixing room least left tokens = .error e →
    Pinned (climb prefixing room least left) room tokens e

namespace PinnedWithin

theorem chain (within : PinnedWithin prefixing room)
    (failed : chain prefixing room least tokens = .error e) :
    Pinned (chain prefixing room least) room tokens e := by
  rcases bind_eq_error.1 failed with failed | ⟨⟨first, middle⟩, read, failed⟩
  · exact (within.operand failed).first _
  · exact .second ((operand_climb_front room).1 read) (within.climb failed)

theorem operand_succ (within : PinnedWithin prefixing room)
    (failed : Parser.operand prefixing (room + 1) tokens = .error e) :
    Pinned (Parser.operand prefixing (room + 1)) (room + 1) tokens e := by
  rcases operand_cases tokens with ⟨op, behind, found⟩ | ⟨offset, behind, rfl⟩ | same
  · obtain ⟨t, rfl, -, again⟩ := prefixOp?_cons found
    rw [operand_prefixed found, map_eq_error] at failed
    refine (within.operand failed).cons fun part' e failed => ?_
    rw [operand_prefixed (again part'), map_eq_error]
    exact failed
  · rw [operand_openParen] at failed
    have pinned : Pinned (andThen (Parser.chain prefixing room 1) closing) room behind e := by
      rcases bind_eq_error.1 failed with failed | ⟨⟨inner, rest⟩, read, failed⟩
      · exact (within.chain failed).first _
      · exact .second (chain_front read) (closing_pinned failed)
    exact pinned.cons fun part' e failed => operand_openParen.trans failed
  · rw [same] at failed
    exact atom_pinned failed

theorem climb_succ (within : PinnedWithin prefixing room)
    (failed : Parser.climb prefixing (room + 1) least left tokens = .error e) :
    Pinned (Parser.climb prefixing (room + 1) least left) (room + 1) tokens e := by
  cases found : infixOp? least tokens with
  | none =>
      rw [climb_stop found] at failed
      cases failed
  | some next =>
      obtain ⟨op, behind⟩ := next
      obtain ⟨low, offset, rfl⟩ := infixOp?_eq_some.1 found
      rw [climb_step found] at failed
      have pinned : Pinned (andThen (Parser.chain prefixing room (op.precedence + 1)) fun right =>
          Parser.climb prefixing room least (.infixed op left right)) room behind e := by
        rcases bind_eq_error.1 failed with failed | ⟨⟨right, rest⟩, read, failed⟩
        · exact (within.chain failed).first _
        · exact .second (chain_front read) (within.climb failed)
      exact pinned.cons fun part' e failed =>
        (climb_step (infixOp?_eq_some.2 ⟨low, offset, rfl⟩)).trans failed

end PinnedWithin

theorem pinnedWithin (prefixing : Prefixing) (room : Nat) : PinnedWithin prefixing room := by
  -- Each level is entered behind a token of its own, so the room counts tokens before the place.
  induction room with
  | zero => exact ⟨operand_zero_pinned, climb_zero_pinned⟩
  | succ room ih => exact ⟨ih.operand_succ, ih.climb_succ⟩

theorem expression_pinned (failed : expression prefixing maxDepth tokens = .error e) :
    Pinned (expression prefixing maxDepth) (maxDepth - 1) tokens e :=
  (pinnedWithin prefixing (maxDepth - 1)).chain failed

/-! ## Statements -/

/-- A statement starts at an offset, behind whole statements and a separator or at the front, and
    assigns to something that is no field. -/
def Misassigned (prefixing : Prefixing) (tokens : List Located) (offset : Nat) : Prop :=
  ∃ before first behind, tokens = before ++ first :: behind ∧ offset = first.offset ∧
    (∃ list, statements prefixing before = .ok list) ∧
    (∀ t ∈ before.getLast?, isSeparator t = true) ∧
    ∃ left offset' rest, expression prefixing maxDepth (first :: behind) =
      .ok (left, ⟨.assign, offset'⟩ :: rest) ∧ ∀ path, left ≠ .field path

theorem statement_of_error (failed : expression prefixing maxDepth tokens = .error e) :
    statement prefixing tokens = .error e := by
  rw [statement, failed]
  rfl

theorem statements_of_error {t : Located} {rest : List Located} (starts : isSeparator t = false)
    (failed : statement prefixing (t :: rest) = .error e) :
    statements prefixing (t :: rest) = .error e := by
  rw [statements_statement starts, failed]
  rfl

theorem statement_pinned (failed : statement prefixing tokens = .error e) :
    Pinned (statement prefixing) (maxDepth - 1) tokens e ∨
      e = .invalidTarget (offsetOf tokens) ∧
        ∃ left offset rest, expression prefixing maxDepth tokens =
          .ok (left, ⟨.assign, offset⟩ :: rest) ∧ ∀ path, left ≠ .field path := by
  rcases bind_eq_error.1 failed with failed | ⟨⟨left, rest⟩, read, failed⟩
  · refine .inl ((expression_pinned failed).lift [] (Nat.le_add_left ..) ?_)
    exact fun part' e _ _ failed => statement_of_error failed
  · dsimp only at failed
    split at failed
    · rename_i offset rest
      split at failed
      · rename_i target
        rcases bind_eq_error.1 failed with unread | ⟨_, -, failed⟩
        · obtain ⟨front, rfl, again⟩ := expression_front read
          rw [List.append_cons]
          refine .inl ((expression_pinned unread).lift _ (Nat.le_add_left ..) ?_)
          intro part' e _ _ failed
          rw [List.append_assoc]
          exact bind_eq_error.2 (.inr ⟨_, again _ (.cons _ _ _), bind_eq_error.2 (.inl failed)⟩)
        · cases failed
      · rename_i noField
        cases failed
        exact .inr ⟨rfl, left, offset, rest, read, noField⟩
    · cases failed

/-- Whole statements and separators, the last of them a separator or none. What stands behind them
    is read as without them. -/
def Leads (prefixing : Prefixing) (front : List Located) : Prop :=
  (∀ t ∈ front.getLast?, isSeparator t = true) ∧
    ∃ list, ∀ tokens, statements prefixing (front ++ tokens) =
      (statements prefixing tokens).map (list ++ ·)

theorem leads_separator {t : Located} (separates : isSeparator t = true) :
    Leads prefixing [t] := by
  refine ⟨by simpa using separates, [], fun tokens => ?_⟩
  rw [List.cons_append, List.nil_append, statements_separator separates]
  cases statements prefixing tokens <;> rfl

/-- A statement leads with the separator behind it. -/
theorem leads_statement {t next : Located} {rest behind : List Located} {s : Statement}
    (starts : isSeparator t = false)
    (read : statement prefixing (t :: rest) = .ok (s, next :: behind))
    (separates : isSeparator next = true) :
    ∃ front, t :: rest = front ++ behind ∧ Leads prefixing front := by
  obtain ⟨front, split, again⟩ := statement_front read
  refine ⟨front ++ [next], by simpa using split, by simpa using separates, [s], fun tokens => ?_⟩
  rw [List.append_assoc, List.cons_append, List.nil_append]
  cases front with
  | nil =>
      cases split
      rw [starts] at separates
      cases separates
  | cons t' front =>
      cases split
      rw [List.cons_append, statements_statement starts]
      have := again (next :: tokens) (.cons _ _ _)
      rw [List.cons_append] at this
      rw [this]
      exact if_pos separates

/-- What a failure to read statements tells of the tokens. -/
def Explains (prefixing : Prefixing) (tokens : List Located) (e : ParseError) : Prop :=
  Pinned (statements prefixing) (maxDepth - 1) tokens e ∨
    ∃ offset, e = .invalidTarget offset ∧ Misassigned prefixing tokens offset

theorem Leads.explains {front : List Located} (leads : Leads prefixing front)
    (explains : Explains prefixing part e) : Explains prefixing (front ++ part) e := by
  obtain ⟨ends, list, onward⟩ := leads
  rcases explains with pinned | ⟨offset, rfl, misassigned⟩
  · refine .inl (pinned.lift front (Nat.le_add_left ..) fun part' e _ _ failed => ?_)
    rw [onward, failed]
    rfl
  · obtain ⟨before, first, behind, rfl, here, ⟨list', read⟩, ends', left⟩ := misassigned
    refine .inr ⟨offset, rfl, front ++ before, first, behind, by simp, here,
      ⟨list ++ list', ?_⟩, ?_, left⟩
    · rw [onward, read]
      rfl
    · intro t mem
      rw [List.getLast?_append, Option.mem_def, Option.or_eq_some_iff] at mem
      rcases mem with mem | ⟨-, mem⟩
      · exact ends' t mem
      · exact ends t mem

theorem statement_explains {t : Located} {rest : List Located} (starts : isSeparator t = false)
    (failed : statement prefixing (t :: rest) = .error e) : Explains prefixing (t :: rest) e := by
  rcases statement_pinned failed with pinned | ⟨rfl, left⟩
  · refine .inl (pinned.lift [] (Nat.le_add_left ..) fun part' e same long failed => ?_)
    -- Only with a first token, and the same one, do statements start with this statement.
    cases part' with
    | nil => cases long
    | cons t' part' =>
        cases same t' rfl
        exact statements_of_error starts failed
  · exact .inr ⟨t.offset, rfl, [], t, rest, rfl, rfl, ⟨[], statements_nil⟩, by simp, left⟩

theorem statements_explains (failed : statements prefixing tokens = .error e) :
    Explains prefixing tokens e := by
  -- By length, since a statement may end anywhere behind its first token.
  induction size : tokens.length using Nat.strongRecOn generalizing tokens with
  | ind size' ih =>
      subst size
      cases tokens with
      | nil =>
          rw [statements_nil] at failed
          cases failed
      | cons t rest =>
          cases starts : isSeparator t with
          | true =>
              rw [statements_separator starts] at failed
              exact (leads_separator starts).explains (ih _ (by simp) failed rfl)
          | false =>
              rw [statements_statement starts] at failed
              rcases bind_eq_error.1 failed with failed | ⟨⟨s, behind⟩, read, failed⟩
              · exact statement_explains starts failed
              · cases behind with
                | nil => cases failed
                | cons next behind =>
                    have shorter := Nat.lt_trans (Nat.lt_succ_self _) (statement_length read)
                    dsimp only at failed
                    split at failed
                    · rename_i separates
                      obtain ⟨front, split, leads⟩ := leads_statement starts read separates
                      rw [split]
                      exact leads.explains (ih _ shorter (map_eq_error.1 failed) rfl)
                    · cases failed
                      obtain ⟨front, split, -⟩ := statement_front read
                      have part : next :: behind ⊆ t :: rest :=
                        split ▸ List.subset_append_right _ _
                      exact .inl (.unexpected .endOfStatement part)

end Parser

end DecisionTable
