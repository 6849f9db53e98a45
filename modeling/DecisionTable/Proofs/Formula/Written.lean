import DecisionTable.Proofs.Formula.Nesting
import DecisionTable.Proofs.Formula.Spelling
import DecisionTable.Proofs.Json.Number

/-! # Reading what is written

An expression is written with each operand of an operator in parentheses. The text is cut into the
tokens that were written, whatever strings are in it, and the parser finds the tree again
(`Expression.parse_written`). Each operator on the way down takes two levels, one of them for the
parenthesis, and a negative number at the end one more. So trees up to height 127 have room.
-/

namespace DecisionTable

open DecisionTable.Parser

namespace Parser

/-- With some room, the tokens are read as an expression, wherever they stand. -/
def ReadsWithin (room : Nat) (ts : List Token) (e : Expression) : Prop :=
  ∀ ⦃located rest⦄, located.map Located.token = ts → Closes 0 rest →
    chain .folding room 1 (located ++ rest) = .ok (e, rest)

theorem chain_of_operand {room least : Nat} {tokens rest : List Located} {e : Expression}
    (read : operand .folding room tokens = .ok (e, rest)) (stops : infixOp? least rest = none) :
    chain .folding room least tokens = .ok (e, rest) :=
  chain_eq_ok.2 ⟨e, rest, read, climb_stop stops⟩

namespace ReadsWithin

variable {room : Nat} {ts us : List Token} {t : Token} {e left right : Expression}

theorem of_atom (noPrefix : ∀ {offset rest}, prefixOp? (⟨t, offset⟩ :: rest) = none)
    (noParen : t ≠ .openParen)
    (read : ∀ ⦃offset located rest⦄, located.map Located.token = ts →
      members rest = .ok ([], rest) → atom (⟨t, offset⟩ :: (located ++ rest)) = .ok (e, rest)) :
    ReadsWithin room (t :: ts) e := by
  intro located rest spelled closes
  obtain ⟨offset, behind, rfl, others⟩ := map_token_eq_cons spelled
  refine chain_of_operand ?_ closes.noTighter
  rw [List.cons_append, operand_atom noPrefix noParen]
  exact read others closes.noMember

theorem of_token (noPrefix : ∀ {offset rest}, prefixOp? (⟨t, offset⟩ :: rest) = none)
    (noParen : t ≠ .openParen)
    (read : ∀ offset rest, atom (⟨t, offset⟩ :: rest) = .ok (e, rest)) :
    ReadsWithin room [t] e := by
  refine of_atom noPrefix noParen fun offset located rest spelled _ => ?_
  rw [List.map_eq_nil_iff.1 spelled]
  exact read offset rest

theorem number (x : Binary64) : ReadsWithin room [.number x] (.literal (.ofBinary64 x)) :=
  of_token rfl (by simp) fun _ _ => rfl

theorem negative_number (x : Binary64) : ReadsWithin (room + 1) [.operator .sub, .number x]
    (Prefixing.folding .negate (.literal (.ofBinary64 x))) := by
  intro located rest spelled closes
  obtain ⟨offset, _, rfl, within⟩ := map_token_eq_cons spelled
  obtain ⟨offset', _, rfl, ended⟩ := map_token_eq_cons within
  obtain rfl := List.map_eq_nil_iff.1 ended
  refine chain_of_operand ?_ closes.noTighter
  simp only [List.cons_append, List.nil_append]
  rw [operand_prefixed rfl, operand_atom rfl (by simp)]
  rfl

/-- What stands in parentheses is an operand. -/
theorem enclosed (reads : ReadsWithin room ts e) {located : List Located}
    (spelled : located.map Located.token = .openParen :: (ts ++ .closeParen :: us)) :
    ∃ behind, behind.map Located.token = us ∧ ∀ rest,
      operand .folding (room + 1) (located ++ rest) = .ok (e, behind ++ rest) := by
  obtain ⟨offset, _, rfl, opened⟩ := map_token_eq_cons spelled
  obtain ⟨inner, _, rfl, within, closing⟩ := List.map_eq_append_iff.1 opened
  obtain ⟨offset', behind, rfl, others⟩ := map_token_eq_cons closing
  refine ⟨behind, others, fun rest => ?_⟩
  have read := reads within (closes_closeParen 0 offset' (behind ++ rest))
  simp only [List.cons_append, List.append_assoc]
  rw [operand_openParen, read]
  rfl

theorem prefixed (reads : ReadsWithin room ts e) {op : PrefixOp}
    (found : ∀ {offset rest}, prefixOp? (⟨t, offset⟩ :: rest) = some (op, rest)) :
    ReadsWithin (room + 2) (t :: .openParen :: (ts ++ [.closeParen]))
      (Prefixing.folding op e) := by
  intro located rest spelled closes
  obtain ⟨offset, inner, rfl, within⟩ := map_token_eq_cons spelled
  obtain ⟨behind, ended, read⟩ := reads.enclosed within
  obtain rfl := List.map_eq_nil_iff.1 ended
  refine chain_of_operand ?_ closes.noTighter
  rw [List.cons_append, operand_prefixed found, read]
  rfl

/-- The operator takes a level for its right side, which takes another one for its parenthesis. -/
theorem infixed (readsLeft : ReadsWithin (room + 1) ts left)
    (readsRight : ReadsWithin room us right) (op : InfixOp) :
    ReadsWithin (room + 2)
      (.openParen :: (ts ++ .closeParen :: .operator op :: .openParen :: (us ++ [.closeParen])))
      (.infixed op left right) := by
  intro located rest spelled closes
  obtain ⟨_, operated, readLeft⟩ := readsLeft.enclosed spelled
  obtain ⟨offset, second, rfl, within⟩ := map_token_eq_cons operated
  obtain ⟨behind, ended, readRight⟩ := readsRight.enclosed within
  obtain rfl := List.map_eq_nil_iff.1 ended
  have stops : infixOp? (op.precedence + 1) rest = none :=
    (closes.mono (Nat.zero_le op.precedence)).noTighter
  have binds : 1 ≤ op.precedence := by cases op <;> decide
  have found : infixOp? 1 (⟨.operator op, offset⟩ :: (second ++ rest)) =
      some (op, second ++ rest) := infixOp?_eq_some.2 ⟨binds, offset, rfl⟩
  refine chain_eq_ok.2 ⟨left, _, readLeft rest, ?_⟩
  rw [List.cons_append, climb_step found, chain_of_operand (readRight rest) stops]
  exact climb_stop closes.noTighter

end ReadsWithin

end Parser

namespace PrefixOp

/-- How a prefix operator is spelled. -/
def symbol : PrefixOp → Char
  | not => '!'
  | negate => '-'

/-- The token of a prefix operator. -/
def token : PrefixOp → Token
  | not => .bang
  | negate => .operator .sub

end PrefixOp

namespace Expression

/-- Expressions whose literals a text can spell, and that have no minus before a number literal,
    which would be read as another literal. -/
inductive Writable : Expression → Prop where
  | null : Writable (.literal .null)
  | bool (value : Bool) : Writable (.literal (.bool value))
  | string (text : String) : Writable (.literal (.string text))
  | number (x : Binary64) : Writable (.literal (.ofBinary64 x))
  | field (path : FieldPath) : Writable (.field path)
  | prefixed {op e} (operand : Writable e)
      (kept : op = .negate → ∀ n, e ≠ .literal (.number n)) : Writable (.prefixed op e)
  | infixed {op left right} (first : Writable left) (second : Writable right) :
      Writable (.infixed op left right)

/-- A member in brackets, as text. -/
def keyText (segment : String) : List Char := '[' :: (Lexer.quotation segment ++ [']'])

/-- An expression as text: operands in parentheses, strings in single quotes, and a gap around infix
    operators. -/
def written (gap : List Char) : Expression → List Char
  | .literal (.string text) => Lexer.quotation text
  | .literal value => value.render.toList
  | .field path => "this".toList ++ path.segments.flatMap keyText
  | .prefixed op e => op.symbol :: '(' :: (written gap e ++ [')'])
  | .infixed op left right =>
    '(' :: (written gap left ++ ')' :: (gap ++ op.symbol.toList ++ gap ++
      '(' :: (written gap right ++ [')'])))

/-- A text is cut into tokens that are read as an expression if there is room for its height. -/
structure Spelled (text : List Char) (ts : List Token) (e : Expression) : Prop where
  spells : Lexer.Spells text ts
  noBreak : .newline ∉ ts
  reads : ∀ room, 2 * e.height + 1 ≤ room → ReadsWithin room ts e

theorem folding_negate (x : Finite64) :
    Prefixing.folding .negate (.literal (.ofBinary64 (.finite { x with negative := false }))) =
      .literal (.ofBinary64 (.finite { x with negative := true })) := by
  obtain ⟨n, value, double⟩ := Json.exists_ofBinary64 { x with negative := false }
  rw [value, Prefixing.folding, double]
  rfl

/-- A finite double is read from its text as a literal. -/
theorem spelled_text (x : Finite64) :
    ∃ ts, Spelled (Binary64.finite x).text.toList ts (.literal (.ofBinary64 (.finite x))) := by
  obtain ⟨d, text, nearest⟩ := Binary64.exists_text x
  obtain ⟨d', numeral, same⟩ := Decimal.exists_numeral d
  have digits := Lexer.spells_numeral numeral
  rw [same, nearest] at digits
  rw [text, ← Json.ofBinary64_plain]
  cases sign : x.plain.negative with
  | false =>
      have plain : x.plain = { x with negative := false } := by rw [← sign]; rfl
      exact ⟨_, digits, by simp, fun _ _ => plain ▸ .number _⟩
  | true =>
      have plain : x.plain = { x with negative := true } := by rw [← sign]; rfl
      refine ⟨_, digits.token rfl, by simp, fun room enough => ?_⟩
      obtain ⟨room, rfl⟩ : ∃ fewer, room = fewer + 1 := ⟨room - 1, by omega⟩
      rw [plain, ← folding_negate]
      exact .negative_number _

theorem spelled_constant {name : String} {value : Json}
    (known : (name, value) ∈ Grammar.constants) :
    Spelled name.toList [.word name] (.literal value) where
  spells := by
    simp only [Grammar.constants, List.mem_cons, Prod.mk.injEq, List.not_mem_nil, or_false] at known
    rcases known with ⟨rfl, -⟩ | ⟨rfl, -⟩ | ⟨rfl, -⟩ | ⟨rfl, -⟩ <;>
      exact Lexer.spells_nil.token rfl
  noBreak := by simp
  reads _ _ := .of_token rfl (by simp) fun _ rest => word_constant known rest

theorem spelled_string (text : String) :
    Spelled (Lexer.quotation text) [.string text] (.literal (.string text)) where
  spells := by
    have := Lexer.spells_nil.quotation text
    rwa [List.append_nil] at this
  noBreak := by simp
  reads _ _ := .of_token rfl (by simp) fun _ _ => rfl

/-- The tokens of a member in brackets. -/
def keyTokens (segment : String) : List Token := [.openBracket, .string segment, .closeBracket]

theorem spells_keys (segments : List String) :
    Lexer.Spells (segments.flatMap keyText) (segments.flatMap keyTokens) := by
  induction segments with
  | nil => exact Lexer.spells_nil
  | cons segment segments ih =>
      have closed : Lexer.Spells (']' :: segments.flatMap keyText)
          (.closeBracket :: segments.flatMap keyTokens) := ih.token rfl
      have := (closed.quotation segment).token (c := '[') rfl
      simpa only [List.flatMap_cons, keyText, keyTokens, List.cons_append, List.append_assoc,
        List.nil_append] using this

theorem accesses_keys (segments : List String) :
    Grammar.Accesses (segments.flatMap keyTokens) segments := by
  induction segments with
  | nil => exact .nil
  | cons segment segments ih => exact .keyed ih

theorem spelled_field (gap : List Char) (path : FieldPath) :
    Spelled (written gap (.field path)) (.word "this" :: path.segments.flatMap keyTokens)
      (.field path) where
  spells := by
    have this : Lexer.Spells "this".toList [.word "this"] := Lexer.spells_nil.token rfl
    refine this.append ?_ (spells_keys path.segments)
    simp [FieldPath.segments, keyText, Lexer.ends, Lexer.isWordRest]
  noBreak := by simp [keyTokens]
  reads _ _ := by
    refine .of_atom rfl (by simp) fun offset located rest spelled noMember => ?_
    have read := members_complete (accesses_keys path.segments) spelled noMember
    simp only [atom, word, read, FieldPath.segments]

/-- What is written for a value is read as its literal. -/
theorem spelled_value (gap : List Char) {value : Json} (writable : Writable (.literal value)) :
    ∃ ts, Spelled (written gap (.literal value)) ts (.literal value) := by
  have null : Spelled "null".toList [.word "null"] (.literal .null) :=
    spelled_constant (by simp [Grammar.constants])
  have no : Spelled "false".toList [.word "false"] (.literal (.bool false)) :=
    spelled_constant (by simp [Grammar.constants])
  have yes : Spelled "true".toList [.word "true"] (.literal (.bool true)) :=
    spelled_constant (by simp [Grammar.constants])
  cases writable with
  | null => exact ⟨_, null⟩
  | bool value =>
      cases value with
      | false => exact ⟨_, no⟩
      | true => exact ⟨_, yes⟩
  | string text => exact ⟨_, spelled_string text⟩
  | number x =>
      cases x with
      | nan => exact ⟨_, null⟩
      | infinite negative => exact ⟨_, null⟩
      | finite x =>
          obtain ⟨n, value, double⟩ := Json.exists_ofBinary64 x
          have := spelled_text x.plain
          rw [Json.ofBinary64_plain, value, ← double] at this
          rw [value]
          exact this

theorem Spelled.prefixed {text : List Char} {ts : List Token} {e : Expression}
    (operand : Spelled text ts e) {op : PrefixOp}
    (kept : op = .negate → ∀ n, e ≠ .literal (.number n)) :
    Spelled (op.symbol :: '(' :: (text ++ [')'])) (op.token :: .openParen :: (ts ++ [.closeParen]))
      (.prefixed op e) where
  spells := by
    have enclosed := operand.spells.enclosed Lexer.spells_nil
    cases op <;> exact enclosed.token rfl
  noBreak := by
    have := operand.noBreak
    cases op <;> simp [PrefixOp.token, this]
  reads room enough := by
    rw [height] at enough
    obtain ⟨room, rfl⟩ : ∃ fewer, room = fewer + 2 := ⟨room - 2, by omega⟩
    rw [← folding_eq_prefixed kept]
    exact (operand.reads room (by omega)).prefixed (by intros; cases op <;> rfl)

theorem Spelled.infixed {gap text text' : List Char} (blank : ∀ c ∈ gap, Lexer.isBlank c = true)
    {ts us : List Token} {left right : Expression} (first : Spelled text ts left)
    (second : Spelled text' us right) (op : InfixOp) :
    Spelled
      ('(' :: (text ++ ')' :: (gap ++ op.symbol.toList ++ gap ++ '(' :: (text' ++ [')']))))
      (.openParen :: (ts ++ .closeParen :: .operator op :: .openParen :: (us ++ [.closeParen])))
      (.infixed op left right) where
  spells := by
    have behind := (second.spells.enclosed Lexer.spells_nil).blanks blank
    have operated := (Lexer.spells_symbol op).append
      (Lexer.ends_of_gap blank (by simp [Lexer.ends, Lexer.isWordRest])) behind
    have := first.spells.enclosed (operated.blanks blank)
    simpa only [List.append_assoc, List.singleton_append] using this
  noBreak := by simp [first.noBreak, second.noBreak]
  reads room enough := by
    rw [height] at enough
    obtain ⟨room, rfl⟩ : ∃ fewer, room = fewer + 2 := ⟨room - 2, by omega⟩
    exact (first.reads (room + 1) (by omega)).infixed (second.reads room (by omega)) op

/-- What is written is cut into tokens that are read as the expression. -/
theorem Writable.spelled {gap : List Char} (blank : ∀ c ∈ gap, Lexer.isBlank c = true)
    {e : Expression} (writable : Writable e) : ∃ ts, Spelled (written gap e) ts e := by
  induction writable with
  | null => exact spelled_value gap .null
  | bool value => exact spelled_value gap (.bool value)
  | string text => exact spelled_value gap (.string text)
  | number x => exact spelled_value gap (.number x)
  | field path => exact ⟨_, spelled_field gap path⟩
  | prefixed _ kept ih =>
      obtain ⟨ts, operand⟩ := ih
      exact ⟨_, operand.prefixed kept⟩
  | infixed _ _ ihl ihr =>
      obtain ⟨ts, first⟩ := ihl
      obtain ⟨us, second⟩ := ihr
      exact ⟨_, first.infixed blank second _⟩

/-- An expression is read from what is written for it. -/
theorem parse_written {gap : List Char} (blank : ∀ c ∈ gap, Lexer.isBlank c = true)
    {e : Expression} (writable : Writable e) (low : e.height ≤ 127) :
    parse (String.ofList (written gap e)) = .ok e := by
  obtain ⟨ts, spells, noBreak, reads⟩ := writable.spelled blank
  obtain ⟨located, found, spelled⟩ := spells 0
  have kept : located.filter (·.token != .newline) = located := by
    refine List.filter_eq_self.2 fun t mem => ?_
    have known : t.token ∈ ts := spelled ▸ List.mem_map_of_mem mem
    exact bne_iff_ne.2 fun eq => noBreak (eq ▸ known)
  have read := reads 255 (by omega) spelled (closes_nil 0)
  rw [List.append_nil] at read
  refine bind_eq_ok.2 ⟨located, ?_, ofTokens_eq_ok.2 ?_⟩
  · rw [tokenize, String.toList_ofList, found]
  · rw [kept]
    exact read

theorem parse_written_escaped : ∃ e,
    written [' '] e = "(-(this['']['it\\'s'])) < (('\\\\\n') + (-0.25))".toList ∧
      parse "(-(this['']['it\\'s'])) < (('\\\\\n') + (-0.25))" = .ok e := by
  let quarter : Expression := .literal (.ofBinary64 (Decimal.nearest true ⟨25, -2⟩))
  let e : Expression := .infixed .less (.prefixed .negate (.field ⟨"", ["it's"]⟩))
    (.infixed .add (.literal (.string "\\\n")) quarter)
  have text : written [' '] e = "(-(this['']['it\\'s'])) < (('\\\\\n') + (-0.25))".toList := by
    decide +kernel
  have writable : Writable e :=
    .infixed (.prefixed (.field _) (by simp)) (.infixed (.string _) (.number _))
  have blank : ∀ c ∈ [' '], Lexer.isBlank c = true := List.forall_mem_singleton.2 rfl
  have read := parse_written blank writable (by decide)
  rw [text, String.ofList_toList] at read
  exact ⟨e, text, read⟩

end Expression

end DecisionTable
