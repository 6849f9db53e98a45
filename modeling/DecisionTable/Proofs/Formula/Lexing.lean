import DecisionTable.Formula.Lexer

/-! # Lexemes of joined texts

Where a lexeme ends is told by the character behind it. A blank character, a line break, a
bracket, a quote and every character that only strings have leave the end where it is. So a
text that stands before one of them has the same tokens as on its own, whatever is behind
(`tokens_append`). Offsets move when texts are joined, hence `Spells`, which leaves them out.
All of this goes by the cases of one step of the reader, which `Scans` lists.
-/

namespace DecisionTable

namespace Lexer

/-- Characters that no lexeme before them goes on with, if it is not a string. -/
def ends (c : Char) : Bool := !isWordRest c && !(['.', '+', '-', '=', '&', '|'].contains c)

/-- Such a character is no part of a number, a word or a longer lexeme of punctuation. -/
theorem of_ends {c : Char} (h : ends c = true) :
    c.isDigit = false ∧ isWordRest c = false ∧ c ∉ ['.', 'e', 'E', '+', '-', '=', '&', '|'] := by
  simp only [ends, Bool.and_eq_true, Bool.not_eq_true', List.contains_eq_mem,
    decide_eq_false_iff_not] at h
  obtain ⟨word, other⟩ := h
  refine ⟨?_, word, fun mem => ?_⟩
  · simp only [isWordRest, Char.isAlphanum, Bool.or_eq_false_iff] at word
    exact word.1.1.2
  · by_cases mark : c = 'e' ∨ c = 'E'
    · rcases mark with rfl | rfl <;> cases word
    · simp_all

theorem ends_of_isBlank {c : Char} (blank : isBlank c = true) : ends c = true := by
  simp only [isBlank, Bool.or_eq_true, beq_iff_eq] at blank
  rcases blank with ((rfl | rfl) | rfl) | feed
  · rfl
  · rfl
  · rfl
  · obtain rfl : c = Char.ofNat 12 := by rw [← feed, Char.ofNat_toNat]
    rfl

variable {b : Char} {more : List Char}

theorem split_extend {test : Char → Bool} (fails : test b = false) (text : List Char) :
    split test (text ++ b :: more) = ((split test text).1, (split test text).2 ++ b :: more) := by
  induction text with
  | nil => simp [split, fails]
  | cons c text ih =>
      simp only [split, Prod.mk.injEq] at ih
      cases passes : test c <;> simp [split, passes, ih]

theorem signPart_extend (h : ends b = true) (text : List Char) :
    signPart (text ++ b :: more) = ((signPart text).1, (signPart text).2 ++ b :: more) := by
  obtain ⟨-, -, other⟩ := of_ends h
  match text with
  | [] =>
      simp only [List.nil_append]
      unfold signPart
      split <;> simp_all
  | c :: text =>
      by_cases plus : c = '+'
      · subst plus
        rfl
      · by_cases minus : c = '-'
        · subst minus
          rfl
        · simp [signPart, plus, minus]

theorem exponentPart_extend (h : ends b = true) (text : List Char) :
    exponentPart (text ++ b :: more) =
      ((exponentPart text).1, (exponentPart text).2 ++ b :: more) := by
  obtain ⟨digit, -, other⟩ := of_ends h
  match text with
  | [] => simp_all [exponentPart]
  | mark :: text =>
      simp only [List.cons_append, exponentPart, signPart_extend h, split_extend digit]
      split <;> simp

theorem numeralPart_extend (h : ends b = true) (text : List Char) :
    numeralPart (text ++ b :: more) =
      ((numeralPart text).1, (numeralPart text).2 ++ b :: more) := by
  obtain ⟨digit, -, other⟩ := of_ends h
  have fails : (b.isDigit || b == '.') = false := by simp_all
  have mantissa : split (fun c => c.isDigit || c == '.') (text ++ b :: more) = _ :=
    split_extend fails text
  simp only [numeralPart, mantissa, exponentPart_extend h]

/-- A string ends at its closing quote, whatever is behind. -/
theorem quoted?_cut {quote : Char} {text : List Char} {q : Quoted}
    (read : quoted? quote text = some q) (more : List Char) :
    quoted? quote (q.written ++ more) = some { q with rest := more } := by
  fun_induction quoted? quote text generalizing q with
  | case1 => cases read
  | case2 cs =>
      cases read
      rw [List.singleton_append, quoted?.eq_def]
      simp only [if_true]
  | case3 => cases read
  | case4 d ds escapes ih =>
      obtain ⟨inner, within, rfl⟩ := Option.map_eq_some_iff.1 read
      simp only [List.cons_append, quoted?, if_neg escapes, if_true, ih within, Option.map_some]
  | case5 c cs open_ plain ih =>
      obtain ⟨inner, within, rfl⟩ := Option.map_eq_some_iff.1 read
      rw [List.cons_append, quoted?.eq_def]
      simp only [open_, plain, if_false, ih within, Option.map_some]

theorem quoted?_extend {quote : Char} {text : List Char} {q : Quoted}
    (read : quoted? quote text = some q) (more : List Char) :
    quoted? quote (text ++ more) = some { q with rest := q.rest ++ more } := by
  rw [← quoted?_append read, List.append_assoc]
  exact quoted?_cut read _

theorem punctuation?_le {text : List Char} {token : Token} {length : Nat}
    (read : punctuation? text = some (token, length)) : length ≤ text.length := by
  unfold punctuation? at read
  split at read
  case h_25 => cases read
  all_goals
    cases read
    simp

/-- An operator of one character stays one when such a character follows. The equations are
    numbered as the alternatives of `punctuation?`. -/
theorem punctuation?_extend (h : ends b = true) (more : List Char) {text : List Char}
    {found : Token × Nat} (read : punctuation? text = some found) :
    punctuation? (text ++ b :: more) = some found := by
  have apart : ∀ {rest : List Char}, (∀ tail, rest = '=' :: tail → False) →
      ∀ tail, rest ++ b :: more = '=' :: tail → False := by
    intro rest no tail joined
    rcases List.append_eq_cons_iff.1 joined with ⟨-, eq⟩ | ⟨_, eq, -⟩
    · have := (of_ends h).2.2
      simp_all
    · exact no _ eq
  unfold punctuation? at read
  split at read
  case h_25 => cases read
  all_goals cases read
  case h_3 no => exact punctuation?.eq_3 _ (apart no)
  case h_4 no => exact punctuation?.eq_4 _ (apart no)
  case h_9 no => exact punctuation?.eq_9 _ (apart no)
  case h_10 no => exact punctuation?.eq_10 _ (apart no)
  case h_11 no => exact punctuation?.eq_11 _ (fun _ => apart no _) (apart no)
  case h_17 no => exact punctuation?.eq_17 _ (fun _ => apart no _) (apart no)
  all_goals rfl

theorem startsNumber_extend (h : ends b = true) (c : Char) (rest : List Char) :
    startsNumber c (rest ++ b :: more) = startsNumber c rest := by
  obtain ⟨digit, -, -⟩ := of_ends h
  cases rest <;> simp [startsNumber, digit]

/-- What comes of the front of a text, case by case. -/
inductive Scans (offset : Nat) (c : Char) (rest : List Char) : Except ParseError Lexeme → Prop
  | blank (blank : isBlank c = true) : Scans offset c rest (.ok ⟨[c], none, rest⟩)
  | number {x : Binary64} (visible : isBlank c = false) (starts : startsNumber c rest = true)
      (value : Decimal.read? (numeralPart (c :: rest)).1 = some x) :
      Scans offset c rest
        (.ok ⟨(numeralPart (c :: rest)).1, some (.number x), (numeralPart (c :: rest)).2⟩)
  | badNumber (visible : isBlank c = false) (starts : startsNumber c rest = true)
      (value : Decimal.read? (numeralPart (c :: rest)).1 = none) :
      Scans offset c rest
        (.error (.invalidNumber (String.ofList (numeralPart (c :: rest)).1) offset))
  | string {q : Quoted} (visible : isBlank c = false) (other : startsNumber c rest = false)
      (quote : (c == '\'' || c == '"') = true) (read : quoted? c rest = some q) :
      Scans offset c rest
        (.ok ⟨c :: q.written, some (.string (String.ofList q.text)), q.rest⟩)
  | openString (visible : isBlank c = false) (other : startsNumber c rest = false)
      (quote : (c == '\'' || c == '"') = true) (read : quoted? c rest = none) :
      Scans offset c rest (.error (.unterminatedString offset))
  | word (visible : isBlank c = false) (other : startsNumber c rest = false)
      (unquoted : (c == '\'' || c == '"') = false) (start : isWordStart c = true) :
      Scans offset c rest (.ok ⟨c :: (split isWordRest rest).1,
        some (.word (String.ofList (c :: (split isWordRest rest).1))),
        (split isWordRest rest).2⟩)
  | punctuation {token : Token} {length : Nat} (visible : isBlank c = false)
      (other : startsNumber c rest = false) (unquoted : (c == '\'' || c == '"') = false)
      (mark : isWordStart c = false) (read : punctuation? (c :: rest) = some (token, length)) :
      Scans offset c rest
        (.ok ⟨(c :: rest).take length, some token, (c :: rest).drop length⟩)
  | unexpected (visible : isBlank c = false) (other : startsNumber c rest = false)
      (unquoted : (c == '\'' || c == '"') = false) (mark : isWordStart c = false)
      (read : punctuation? (c :: rest) = none) :
      Scans offset c rest (.error (.unexpectedChar c offset))

variable {offset : Nat} {c : Char} {rest : List Char} {result : Except ParseError Lexeme}

theorem Scans.eq (scans : Scans offset c rest result) : scan offset c rest = result := by
  cases scans <;> simp [scan, *]

theorem exists_scans (offset : Nat) (c : Char) (rest : List Char) :
    ∃ result, Scans offset c rest result := by
  cases visible : isBlank c with
  | true => exact ⟨_, .blank visible⟩
  | false =>
  cases starts : startsNumber c rest with
  | true =>
      cases value : Decimal.read? (numeralPart (c :: rest)).1 with
      | none => exact ⟨_, .badNumber visible starts value⟩
      | some x => exact ⟨_, .number visible starts value⟩
  | false =>
  cases quote : (c == '\'' || c == '"') with
  | true =>
      cases read : quoted? c rest with
      | none => exact ⟨_, .openString visible starts quote read⟩
      | some q => exact ⟨_, .string visible starts quote read⟩
  | false =>
  cases mark : isWordStart c with
  | true => exact ⟨_, .word visible starts quote mark⟩
  | false =>
      cases read : punctuation? (c :: rest) with
      | none => exact ⟨_, .unexpected visible starts quote mark read⟩
      | some found => exact ⟨_, .punctuation visible starts quote mark read⟩

theorem scans_of_scan (read : scan offset c rest = result) : Scans offset c rest result := by
  obtain ⟨result', scans⟩ := exists_scans offset c rest
  rwa [← read, scans.eq]

theorem scan_offset {lexeme : Lexeme} (read : scan offset c rest = .ok lexeme) (offset' : Nat) :
    scan offset' c rest = .ok lexeme := by
  cases scans_of_scan read with
  | blank blank => exact (Scans.blank blank).eq
  | number visible starts value => exact (Scans.number visible starts value).eq
  | string visible other quote found => exact (Scans.string visible other quote found).eq
  | word visible other unquoted start => exact (Scans.word visible other unquoted start).eq
  | punctuation visible other unquoted mark found =>
      exact (Scans.punctuation visible other unquoted mark found).eq

theorem scan_extend (h : ends b = true) {lexeme : Lexeme}
    (read : scan offset c rest = .ok lexeme) :
    scan offset c (rest ++ b :: more) = .ok { lexeme with rest := lexeme.rest ++ b :: more } := by
  obtain ⟨-, wordRest, -⟩ := of_ends h
  have same : startsNumber c (rest ++ b :: more) = startsNumber c rest :=
    startsNumber_extend h c rest
  cases scans_of_scan read with
  | blank blank => exact (Scans.blank blank).eq
  | @number x visible starts value =>
      -- The numeral and thus its value are the same; only what is behind it has grown.
      have numeral : numeralPart (c :: (rest ++ b :: more)) = _ :=
        numeralPart_extend h (c :: rest)
      have value' : Decimal.read? (numeralPart (c :: (rest ++ b :: more))).1 = some x := by
        rwa [numeral]
      refine (Scans.number visible (same.trans starts) value').eq.trans ?_
      rw [numeral]
  | string visible other quote found =>
      exact (Scans.string visible (same.trans other) quote (quoted?_extend found _)).eq
  | word visible other unquoted start =>
      refine (Scans.word visible (same.trans other) unquoted start).eq.trans ?_
      rw [split_extend wordRest]
  | @punctuation token length visible other unquoted mark found =>
      have fits := punctuation?_le found
      have found' : punctuation? (c :: (rest ++ b :: more)) = some (token, length) :=
        punctuation?_extend h more found
      refine (Scans.punctuation visible (same.trans other) unquoted mark found').eq.trans ?_
      rw [← List.cons_append, List.take_append_of_le_length fits,
        List.drop_append_of_le_length fits]

theorem tokens_cons {lexeme : Lexeme} (read : scan offset c rest = .ok lexeme) :
    tokens offset (c :: rest) = (tokens (offset + width lexeme.text) lexeme.rest).map
      (lexeme.token.toList.map (⟨·, offset⟩) ++ ·) := by
  rw [tokens]
  split
  · simp_all
  · rename_i lexeme' read'
    obtain rfl : lexeme' = lexeme := by simp_all
    dsimp only
    cases tokens (offset + width lexeme'.text) lexeme'.rest with
    | error e => rfl
    | ok others => cases lexeme'.token <;> rfl

/-- `Spells text tokens`: wherever the text stands, these are its tokens. -/
def Spells (text : List Char) (ts : List Token) : Prop :=
  ∀ offset, ∃ located, tokens offset text = .ok located ∧ located.map Located.token = ts

theorem spells_nil : Spells [] [] := fun _ => ⟨[], by rw [tokens], rfl⟩

theorem Spells.cons {lexeme : Lexeme} {ts : List Token} (spells : Spells lexeme.rest ts)
    (read : scan offset c rest = .ok lexeme) :
    Spells (c :: rest) (lexeme.token.toList ++ ts) := by
  intro offset'
  obtain ⟨located, found, rfl⟩ := spells (offset' + width lexeme.text)
  rw [tokens_cons (scan_offset read offset'), found]
  exact ⟨_, rfl, by cases lexeme.token <;> rfl⟩

/-- A text starts with a token. -/
theorem Spells.token {text behind : List Char} {t : Token} {ts : List Token}
    (read : scan 0 c rest = .ok ⟨text, some t, behind⟩) (spells : Spells behind ts) :
    Spells (c :: rest) (t :: ts) := spells.cons read

theorem Spells.blank {ts : List Token} (blank : isBlank c = true)
    (spells : Spells rest ts) : Spells (c :: rest) ts := by
  have read : scan 0 c rest = .ok ⟨[c], none, rest⟩ := if_pos blank
  exact spells.cons read

theorem width_append (text more : List Char) : width (text ++ more) = width text + width more := by
  induction text with
  | nil => simp [width]
  | cons c text ih => simp only [width, List.cons_append, List.foldr_cons] at ih ⊢; omega

/-- A text that is joined to another has its tokens, and behind them those of the other one, which
    starts where it ends. -/
theorem tokens_append {offset : Nat} {text : List Char} {located : List Located}
    (found : tokens offset text = .ok located) (apart : ∀ c ∈ more.head?, ends c = true) :
    tokens offset (text ++ more) =
      (tokens (offset + width text) more).map (located ++ ·) := by
  fun_induction tokens offset text generalizing located with
  | case1 =>
      cases found
      simp only [width, List.nil_append, List.foldr_nil, Nat.add_zero]
      cases tokens _ more <;> rfl
  | case2 => cases found
  | case3 => cases found
  | case4 offset c rest lexeme read shorter others onward ih =>
      cases found
      have extended : scan offset c (rest ++ more) =
          .ok { lexeme with rest := lexeme.rest ++ more } := by
        match more with
        | [] => simpa using read
        | b :: more => exact scan_extend (apart b rfl) read
      have ended : offset + width (c :: rest) =
          offset + width lexeme.text + width lexeme.rest := by
        rw [← scan_append read, width_append, Nat.add_assoc]
      rw [List.cons_append, tokens_cons extended, ih onward, ended]
      cases tokens _ more with
      | error e => rfl
      | ok behind => cases token : lexeme.token <;> simp [Except.map]

theorem spells_of_tokens {offset : Nat} {text : List Char} {located : List Located}
    (found : tokens offset text = .ok located) : Spells text (located.map Located.token) := by
  fun_induction tokens offset text generalizing located with
  | case1 =>
      cases found
      exact spells_nil
  | case2 => cases found
  | case3 => cases found
  | case4 offset c rest lexeme read shorter others onward ih =>
      cases found
      have := (ih onward).cons read
      cases token : lexeme.token <;> simpa [token] using this

theorem Spells.append {text : List Char} {ts us : List Token} (spells : Spells text ts)
    (apart : ∀ c ∈ more.head?, ends c = true) (spells' : Spells more us) :
    Spells (text ++ more) (ts ++ us) := by
  intro offset
  obtain ⟨located, found, rfl⟩ := spells offset
  obtain ⟨behind, found', rfl⟩ := spells' (offset + width text)
  exact ⟨located ++ behind, by rw [tokens_append found apart, found']; rfl, List.map_append⟩

end Lexer
end DecisionTable
