import DecisionTable.Formula.Token

/-! # Cutting a text into tokens

`scan` takes one lexeme off the front of a text: a run of text that is a token, or one blank
character. `tokenize` repeats it to the end. The lexemes of a text are its characters again
(`scan_append`), and each has at least one (`scan_text_ne_nil`), so the repetition ends.
-/

namespace DecisionTable

/-- A lexeme at the front of a text: its characters, its token unless it is blank, and the text
    behind it. -/
structure Lexeme where
  text : List Char
  token : Option Token
  rest : List Char

namespace Lexer

/-- Bytes of a text. -/
def width (text : List Char) : Nat := text.foldr (fun c n => c.utf8Size + n) 0

/-- Blank characters between tokens. A line break is a token. -/
def isBlank (c : Char) : Bool := c == ' ' || c == '\t' || c == '\r' || c.toNat == 12

/-- Characters a word starts with. -/
def isWordStart (c : Char) : Bool := c.isAlpha || c == '_' || c == '$'

/-- Characters a word goes on with. -/
def isWordRest (c : Char) : Bool := c.isAlphanum || c == '_' || c == '$'

/-- The longest front part of a text whose characters pass a test, and what is behind it. -/
def split (test : Char → Bool) (text : List Char) : List Char × List Char :=
  (text.takeWhile test, text.dropWhile test)

/-- The sign at the front of a text, if there is one. -/
def signPart : List Char → List Char × List Char
  | '+' :: rest => (['+'], rest)
  | '-' :: rest => (['-'], rest)
  | text => ([], text)

/-- The exponent at the front of a text, if one with at least one digit stands there. -/
def exponentPart : List Char → List Char × List Char
  | [] => ([], [])
  | mark :: rest =>
    let sign := signPart rest
    let digits := split Char.isDigit sign.2
    if (mark == 'e' || mark == 'E') && !digits.1.isEmpty then
      (mark :: (sign.1 ++ digits.1), digits.2)
    else
      ([], mark :: rest)

/-- The numeral at the front of a text: digits and points, and then an exponent. -/
def numeralPart (text : List Char) : List Char × List Char :=
  let mantissa := split (fun c => c.isDigit || c == '.') text
  let exponent := exponentPart mantissa.2
  (mantissa.1 ++ exponent.1, exponent.2)

/-- The character a backslash and a letter stand for in a string. -/
def unescape (c : Char) : Char :=
  match c with
  | 'n' => '\n'
  | 't' => '\t'
  | c => c

/-- A string behind its opening quote: its characters as written with the closing quote, the
    text they stand for, and what is behind. -/
structure Quoted where
  written : List Char
  text : List Char
  rest : List Char

/-- Reads a string up to its closing quote; `none` if the text ends first. -/
def quoted? (quote : Char) : List Char → Option Quoted
  | [] => none
  | c :: cs =>
    if c = quote then
      some ⟨[c], [], cs⟩
    else if c = '\\' then
      match cs with
      | [] => none
      | d :: ds =>
        (quoted? quote ds).map fun q => ⟨c :: d :: q.written, unescape d :: q.text, q.rest⟩
    else
      (quoted? quote cs).map fun q => ⟨c :: q.written, c :: q.text, q.rest⟩

/-- The token of punctuation at the front of a text, and its length; the longest one wins. -/
def punctuation? : List Char → Option (Token × Nat)
  | '=' :: '=' :: '=' :: _ => some (.operator .strictEqual, 3)
  | '!' :: '=' :: '=' :: _ => some (.operator .strictNotEqual, 3)
  | '=' :: '=' :: _ => some (.operator .equal, 2)
  | '!' :: '=' :: _ => some (.operator .notEqual, 2)
  | '<' :: '=' :: _ => some (.operator .lessEqual, 2)
  | '>' :: '=' :: _ => some (.operator .greaterEqual, 2)
  | '&' :: '&' :: _ => some (.operator .and, 2)
  | '|' :: '|' :: _ => some (.operator .or, 2)
  | '<' :: _ => some (.operator .less, 1)
  | '>' :: _ => some (.operator .greater, 1)
  | '!' :: _ => some (.bang, 1)
  | '+' :: _ => some (.operator .add, 1)
  | '-' :: _ => some (.operator .sub, 1)
  | '*' :: _ => some (.operator .mul, 1)
  | '/' :: _ => some (.operator .div, 1)
  | '%' :: _ => some (.operator .rem, 1)
  | '=' :: _ => some (.assign, 1)
  | '.' :: _ => some (.dot, 1)
  | '(' :: _ => some (.openParen, 1)
  | ')' :: _ => some (.closeParen, 1)
  | '[' :: _ => some (.openBracket, 1)
  | ']' :: _ => some (.closeBracket, 1)
  | ';' :: _ => some (.semicolon, 1)
  | '\n' :: _ => some (.newline, 1)
  | _ => none

/-- Whether a number starts with `c` before `rest`: a digit, or a point before a digit. -/
def startsNumber (c : Char) (rest : List Char) : Bool :=
  c.isDigit || (c == '.' && (rest.head?.map Char.isDigit).getD false)

/-- Takes the first lexeme off the text `c :: rest`, which starts at a byte offset. -/
def scan (offset : Nat) (c : Char) (rest : List Char) : Except ParseError Lexeme :=
  if isBlank c then
    .ok ⟨[c], none, rest⟩
  else if startsNumber c rest then
    let numeral := numeralPart (c :: rest)
    match Decimal.read? numeral.1 with
    | some x => .ok ⟨numeral.1, some (.number x), numeral.2⟩
    | none => .error (.invalidNumber (String.ofList numeral.1) offset)
  else if c == '\'' || c == '"' then
    match quoted? c rest with
    | some q => .ok ⟨c :: q.written, some (.string (String.ofList q.text)), q.rest⟩
    | none => .error (.unterminatedString offset)
  else if isWordStart c then
    let tail := split isWordRest rest
    .ok ⟨c :: tail.1, some (.word (String.ofList (c :: tail.1))), tail.2⟩
  else
    match punctuation? (c :: rest) with
    | some (token, length) =>
      .ok ⟨(c :: rest).take length, some token, (c :: rest).drop length⟩
    | none => .error (.unexpectedChar c offset)

theorem split_append (test : Char → Bool) (text : List Char) :
    (split test text).1 ++ (split test text).2 = text :=
  List.takeWhile_append_dropWhile

theorem signPart_append (text : List Char) : (signPart text).1 ++ (signPart text).2 = text := by
  unfold signPart
  split <;> rfl

theorem exponentPart_append (text : List Char) :
    (exponentPart text).1 ++ (exponentPart text).2 = text := by
  cases text with
  | nil => rfl
  | cons mark rest =>
      simp only [exponentPart]
      split
      · simp only [List.cons_append, List.append_assoc, split_append, signPart_append]
      · rfl

theorem numeralPart_append (text : List Char) :
    (numeralPart text).1 ++ (numeralPart text).2 = text := by
  simp only [numeralPart, List.append_assoc, exponentPart_append, split_append]

theorem quoted?_append {quote : Char} {text : List Char} {q : Quoted}
    (h : quoted? quote text = some q) : q.written ++ q.rest = text := by
  fun_induction quoted? quote text generalizing q with
  | case1 => simp at h
  | case2 cs => cases h; rfl
  | case3 => simp at h
  | case4 d ds _ ih =>
      obtain ⟨inner, read, rfl⟩ := Option.map_eq_some_iff.1 h
      simp [ih read]
  | case5 c cs _ _ ih =>
      obtain ⟨inner, read, rfl⟩ := Option.map_eq_some_iff.1 h
      simp [ih read]

theorem numeralPart_ne_nil {c : Char} {rest : List Char} (h : startsNumber c rest = true) :
    (numeralPart (c :: rest)).1 ≠ [] := by
  have first : (c.isDigit || c == '.') = true := by
    simp only [startsNumber, Bool.or_eq_true, Bool.and_eq_true] at h ⊢
    exact h.imp_right And.left
  simp [numeralPart, split, first]

theorem punctuation?_pos {text : List Char} {token : Token} {length : Nat}
    (h : punctuation? text = some (token, length)) : 0 < length := by
  unfold punctuation? at h
  split at h
  case h_25 => cases h
  all_goals
    cases h
    decide

/-- A lexeme and what is behind it are the text. -/
theorem scan_append {offset : Nat} {c : Char} {rest : List Char} {lexeme : Lexeme}
    (h : scan offset c rest = .ok lexeme) : lexeme.text ++ lexeme.rest = c :: rest := by
  unfold scan at h
  split at h
  · cases h; rfl
  · split at h
    · dsimp only at h
      split at h
      · cases h; exact numeralPart_append _
      · cases h
    · split at h
      · split at h
        · rename_i read
          cases h
          simp [quoted?_append read]
        · cases h
      · split at h
        · cases h
          simp [split_append]
        · split at h
          · cases h; exact List.take_append_drop _ _
          · cases h

/-- A lexeme has at least one character. -/
theorem scan_text_ne_nil {offset : Nat} {c : Char} {rest : List Char} {lexeme : Lexeme}
    (h : scan offset c rest = .ok lexeme) : lexeme.text ≠ [] := by
  unfold scan at h
  split at h
  · cases h; simp
  · split at h
    · rename_i starts
      dsimp only at h
      split at h
      · cases h; exact numeralPart_ne_nil starts
      · cases h
    · split at h
      · split at h
        · cases h; simp
        · cases h
      · split at h
        · cases h; simp
        · split at h
          · rename_i punct
            have := punctuation?_pos punct
            cases h
            simp; omega
          · cases h

theorem scan_rest_length {offset : Nat} {c : Char} {rest : List Char} {lexeme : Lexeme}
    (h : scan offset c rest = .ok lexeme) : lexeme.rest.length < (c :: rest).length := by
  have joined := congrArg List.length (scan_append h)
  have := List.length_pos_iff.2 (scan_text_ne_nil h)
  simp only [List.length_append] at joined
  omega

/-- The tokens of a text that starts at a byte offset. -/
def tokens (offset : Nat) : List Char → Except ParseError (List Located)
  | [] => .ok []
  | c :: rest =>
    match h : scan offset c rest with
    | .error e => .error e
    | .ok lexeme =>
      have := scan_rest_length h
      match tokens (offset + width lexeme.text) lexeme.rest with
      | .error e => .error e
      | .ok others =>
        .ok (match lexeme.token with
          | some token => ⟨token, offset⟩ :: others
          | none => others)
termination_by text => text.length
decreasing_by assumption

end Lexer

/-- The tokens of a text with their byte offsets. -/
def tokenize (text : String) : Except ParseError (List Located) := Lexer.tokens 0 text.toList

end DecisionTable
