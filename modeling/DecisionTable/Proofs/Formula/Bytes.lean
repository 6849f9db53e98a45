import DecisionTable.Proofs.Formula.Lexemes
import Mathlib.Data.String.Basic

/-! # Reading a text by its bytes

A reader that goes over the bytes of a text compares single bytes with ASCII characters, and cuts
lexemes out of the text by the positions it has come to. In UTF-8 all bytes of any other character
are above those of ASCII, so it finds the lexemes of the characters, and no cut is inside of a
character (`byteTokens_eq`).
-/

namespace DecisionTable

namespace Lexer

/-- The part of a text between two byte positions. There is none if one of them is inside of a
    character or behind the text, or if they are in the wrong order. -/
def slice? (source : String) (start stop : Nat) : Option String :=
  if String.Pos.Raw.isValid source ⟨start⟩ && String.Pos.Raw.isValid source ⟨stop⟩ &&
      decide (start ≤ stop) then
    some (String.Pos.Raw.extract source ⟨start⟩ ⟨stop⟩)
  else none

/-- The bytes of a text, each as the character with its value as code. -/
def bytes (source : String) : List Char :=
  source.toByteArray.data.toList.map Char.ofUInt8

/-- The token at a byte position, unless a blank is there, and the position behind it. There is no
    result if the text is cut inside of a character. -/
def byteStep (source : String) (i : Nat) : Option (Except ParseError (Option Token × Nat)) :=
  match (bytes source).drop i with
  | [] => none
  | b :: bs =>
    if isBlank b then
      some (.ok (none, i + 1))
    else if startsNumber b bs then
      let stop := i + (numeralPart (b :: bs)).1.length
      (slice? source i stop).map fun numeral =>
        match Decimal.read? numeral.toList with
        | some x => .ok (some (.number x), stop)
        | none => .error (.invalidNumber numeral i)
    else if b == '\'' || b == '"' then
      (slice? source i source.utf8ByteSize).map fun text =>
        match quoted? b text.toList.tail with
        | some q => .ok (some (.string (String.ofList q.text)), i + 1 + width q.written)
        | none => .error (.unterminatedString i)
    else if isWordStart b then
      let stop := i + 1 + (split isWordRest bs).1.length
      (slice? source i stop).map fun word => .ok (some (.word word), stop)
    else
      (slice? source i source.utf8ByteSize).bind fun text =>
        match text.toList with
        | [] => none
        | c :: rest =>
          match punctuation? (c :: rest) with
          | some (token, length) => some (.ok (some token, i + length))
          | none => some (.error (.unexpectedChar c i))

/-- The tokens of a text from a byte position on, by at most so many steps. -/
def byteTokens (source : String) : Nat → Nat → Option (Except ParseError (List Located))
  | 0, _ => none
  | steps + 1, i =>
    if source.utf8ByteSize ≤ i then
      some (.ok [])
    else
      match byteStep source i with
      | none => none
      | some (.error e) => some (.error e)
      | some (.ok (token, stop)) =>
        (byteTokens source steps stop).map fun others =>
          others.map (token.toList.map (⟨·, i⟩) ++ ·)

/-! ## Characters and their bytes -/

/-- The bytes of characters, each as the character with its value as code. -/
def codes (text : List Char) : List Char :=
  (text.flatMap String.utf8EncodeChar).map Char.ofUInt8

theorem bytes_eq (source : String) : bytes source = codes source.toList := by
  conv => lhs; rw [← String.ofList_toList (s := source)]
  rw [bytes, String.toByteArray_ofList, List.utf8Encode, List.toList_data_toByteArray, codes]

theorem codes_append (text more : List Char) : codes (text ++ more) = codes text ++ codes more := by
  rw [codes, List.flatMap_append, List.map_append]
  rfl

theorem width_eq (text : List Char) : width text = String.utf8Len text := by
  induction text with
  | nil => rfl
  | cons c text ih => rw [String.utf8Len_cons, ← ih, Nat.add_comm]; rfl

theorem length_codes (text : List Char) : (codes text).length = width text := by
  induction text with
  | nil => rfl
  | cons c text ih =>
      rw [← List.singleton_append, codes_append, List.length_append, ih, width_append]
      simp [codes, width, String.length_utf8EncodeChar]

theorem toNat_ofUInt8 (byte : UInt8) : (Char.ofUInt8 byte).toNat = byte.toNat :=
  UInt8.toNat_toUInt32 byte

/-- The byte of an ASCII character is the character. -/
theorem codes_ascii {c : Char} (ascii : c.toNat < 128) (text : List Char) :
    codes (c :: text) = c :: codes text := by
  have single : c.utf8Size = 1 := by
    rw [Char.utf8Size_eq_one_iff, UInt32.le_iff_toNat_le]
    exact Nat.le_of_lt_succ ascii
  have code : Char.ofUInt8 c.val.toUInt8 = c := by
    rw [← Char.toNat_inj, toNat_ofUInt8, UInt32.toNat_toUInt8]
    exact Nat.mod_eq_of_lt (Nat.lt_trans ascii (by decide))
  rw [codes, List.flatMap_cons, String.utf8EncodeChar_eq_singleton single, List.singleton_append,
    List.map_cons, code]
  rfl

/-- The first byte of another character is above those of ASCII. -/
theorem codes_wide {c : Char} (wide : 128 ≤ c.toNat) (text : List Char) :
    ∃ b bs, codes (c :: text) = b :: bs ∧ 128 ≤ b.toNat := by
  have lead : ∀ n, 128 ≤ n → n < 256 → 128 ≤ (Char.ofUInt8 (UInt8.ofNat n)).toNat := by
    intro n low high
    rwa [toNat_ofUInt8, UInt8.toNat_ofNat', Nat.mod_eq_of_lt high]
  have beyond : ¬ c.val.toNat ≤ 127 := Nat.not_le.2 wide
  rw [codes, List.flatMap_cons, String.utf8EncodeChar]
  rw [if_neg beyond]
  split
  · exact ⟨_, _, rfl, lead _ (by omega) (by omega)⟩
  · split
    · exact ⟨_, _, rfl, lead _ (by omega) (by omega)⟩
    · exact ⟨_, _, rfl, lead _ (by omega) (by omega)⟩

/-- A test that only ASCII characters pass. -/
def Ascii (test : Char → Bool) : Prop := ∀ c, test c = true → c.toNat < 128

theorem Ascii.eq_false {test : Char → Bool} (ascii : Ascii test) {c : Char}
    (wide : 128 ≤ c.toNat) : test c = false :=
  Bool.eq_false_iff.2 fun passes => Nat.not_lt.2 wide (ascii c passes)

variable {test : Char → Bool}

theorem codes_head (c : Char) (text : List Char) :
    ∃ b bs, codes (c :: text) = b :: bs ∧ ∀ test, Ascii test → test b = test c := by
  by_cases narrow : c.toNat < 128
  · exact ⟨c, codes text, codes_ascii narrow text, fun _ _ => rfl⟩
  · have wide := Nat.not_lt.1 narrow
    obtain ⟨b, bs, split, wide'⟩ := codes_wide wide text
    exact ⟨b, bs, split, fun test ascii => (ascii.eq_false wide').trans (ascii.eq_false wide).symm⟩

theorem split_codes (ascii : Ascii test) (text : List Char) :
    split test (codes text) = ((split test text).1, codes (split test text).2) := by
  induction text with
  | nil => rfl
  | cons c text ih =>
      cases passes : test c with
      | true =>
          rw [codes_ascii (ascii c passes)]
          simp only [split, Prod.mk.injEq] at ih
          simp [split, passes, ih]
      | false =>
          obtain ⟨b, bs, starts, same⟩ := codes_head c text
          have fails : test b = false := (same test ascii).trans passes
          simp [split, passes, starts, fails]

theorem ascii_beq {c : Char} (ascii : c.toNat < 128) : Ascii (· == c) :=
  fun _ same => beq_iff_eq.1 same ▸ ascii

theorem signPart_codes (text : List Char) :
    signPart (codes text) = ((signPart text).1, codes (signPart text).2) := by
  cases text with
  | nil => rfl
  | cons c text =>
      by_cases plus : c = '+'
      · subst plus
        rfl
      · by_cases minus : c = '-'
        · subst minus
          rfl
        · obtain ⟨b, bs, starts, same⟩ := codes_head c text
          have plus' : b ≠ '+' := by
            simpa [plus] using same (· == '+') (ascii_beq (by decide))
          have minus' : b ≠ '-' := by
            simpa [minus] using same (· == '-') (ascii_beq (by decide))
          simp [signPart, plus, minus, starts, plus', minus']

theorem ascii_isDigit : Ascii Char.isDigit := by
  intro c digit
  simp only [Char.isDigit, Bool.and_eq_true, decide_eq_true_eq, UInt32.le_iff_toNat_le] at digit
  exact Nat.lt_of_le_of_lt digit.2 (by decide)

theorem Ascii.or {test test' : Char → Bool} (ascii : Ascii test) (ascii' : Ascii test') :
    Ascii fun c => test c || test' c := by
  intro c passes
  rcases Bool.or_eq_true_iff.1 passes with passes | passes
  · exact ascii c passes
  · exact ascii' c passes

theorem exponentPart_codes (text : List Char) :
    exponentPart (codes text) = ((exponentPart text).1, codes (exponentPart text).2) := by
  cases text with
  | nil => rfl
  | cons mark text =>
      by_cases isMark : (mark == 'e' || mark == 'E') = true
      · have ascii : mark.toNat < 128 :=
          (ascii_beq (by decide)).or (ascii_beq (by decide)) mark isMark
        rw [codes_ascii ascii, exponentPart_cons, exponentPart_cons, signPart_codes,
          split_codes ascii_isDigit]
        split
        · rfl
        · rw [codes_ascii ascii]
      · obtain ⟨b, bs, starts, same⟩ := codes_head mark text
        have other : ¬ (b == 'e' || b == 'E') = true := by
          rwa [same _ ((ascii_beq (by decide)).or (ascii_beq (by decide)))]
        simp [starts, exponentPart, isMark, other]

theorem numeralPart_codes (text : List Char) :
    numeralPart (codes text) = ((numeralPart text).1, codes (numeralPart text).2) := by
  have point : Ascii (· == '.') := ascii_beq (by decide)
  have mantissa := split_codes (ascii_isDigit.or point) text
  simp only [numeralPart, mantissa, exponentPart_codes]

/-- The first byte tells what the first character tells. -/
theorem codes_front (c : Char) (rest : List Char) :
    ∃ b bs, codes (c :: rest) = b :: bs ∧ (∀ test, Ascii test → test b = test c) ∧
      startsNumber b bs = startsNumber c rest := by
  have point : Ascii (· == '.') := ascii_beq (by decide)
  by_cases narrow : c.toNat < 128
  · refine ⟨c, codes rest, codes_ascii narrow rest, fun _ _ => rfl, ?_⟩
    cases rest with
    | nil => rfl
    | cons d rest =>
        obtain ⟨b, bs, starts, same⟩ := codes_head d rest
        simp [startsNumber, starts, same _ ascii_isDigit]
  · have wide := Nat.not_lt.1 narrow
    obtain ⟨b, bs, starts, same⟩ := codes_head c rest
    refine ⟨b, bs, starts, same, ?_⟩
    have digit := same _ ascii_isDigit
    have dot : (b == '.') = (c == '.') := same _ point
    rw [ascii_isDigit.eq_false wide] at digit
    rw [point.eq_false wide] at dot
    simp only [startsNumber, digit, dot, ascii_isDigit.eq_false wide, point.eq_false wide,
      Bool.false_and]

theorem ascii_isBlank : Ascii isBlank := by
  intro c blank
  simp only [isBlank, Bool.or_eq_true, beq_iff_eq] at blank
  rcases blank with ((rfl | rfl) | rfl) | feed
  · decide
  · decide
  · decide
  · omega

theorem ascii_quote : Ascii fun c => c == '\'' || c == '"' :=
  (ascii_beq (by decide)).or (ascii_beq (by decide))

theorem ascii_isAlpha : Ascii Char.isAlpha := by
  intro c letter
  have most : c.val ≤ 'z'.val := by
    rcases Bool.or_eq_true_iff.1 letter with upper | lower
    · exact UInt32.le_trans (of_decide_eq_true upper).2 (by decide)
    · exact of_decide_eq_true (Bool.and_eq_true_iff.1 lower).2
  exact Nat.lt_of_le_of_lt (UInt32.le_iff_toNat_le.1 most) (by decide)

theorem ascii_isWordStart : Ascii isWordStart :=
  (ascii_isAlpha.or (ascii_beq (by decide))).or (ascii_beq (by decide))

theorem ascii_isWordRest : Ascii isWordRest :=
  ((ascii_isAlpha.or ascii_isDigit).or (ascii_beq (by decide))).or (ascii_beq (by decide))

/-! ## Cuts -/

/-- The bytes of some characters end at a boundary between characters. -/
theorem isValid_width {source : String} {before behind : List Char}
    (split : source.toList = before ++ behind) :
    String.Pos.Raw.IsValid source ⟨width before⟩ := by
  refine String.Pos.Raw.isValid_iff_exists_append.2
    ⟨String.ofList before, String.ofList behind, String.toList_inj.1 (by simpa using split), ?_⟩
  rw [String.rawEndPos, String.utf8ByteSize_ofList, width_eq]

theorem slice?_eq {source : String} {before text behind : List Char}
    (split : source.toList = before ++ text ++ behind) :
    slice? source (width before) (width before + width text) = some (String.ofList text) := by
  have start : String.Pos.Raw.isValid source ⟨width before⟩ = true :=
    String.Pos.Raw.isValid_eq_true_iff.2 (isValid_width (split.trans (List.append_assoc ..)))
  have stop : String.Pos.Raw.isValid source ⟨width before + width text⟩ = true := by
    rw [← width_append]
    exact String.Pos.Raw.isValid_eq_true_iff.2 (isValid_width split)
  have cut : String.Pos.Raw.extract source ⟨width before⟩ ⟨width before + width text⟩ =
      String.ofList text := by
    rw [← String.ofList_toList (s := source), split, width_eq, width_eq]
    exact String.extract_of_valid before text behind
  rw [slice?, start, stop, cut]
  simp

theorem utf8ByteSize_eq {source : String} {before text : List Char}
    (split : source.toList = before ++ text) :
    source.utf8ByteSize = width before + width text := by
  rw [← String.utf8Len_toList, split, ← width_eq, width_append]

theorem bytes_drop {source : String} {before text : List Char}
    (split : source.toList = before ++ text) :
    (bytes source).drop (width before) = codes text := by
  rw [bytes_eq, split, codes_append, List.drop_left' (length_codes before)]

/-- A numeral has as many bytes as characters. -/
theorem length_numeralPart (text : List Char) :
    (numeralPart text).1.length = width (numeralPart text).1 := by
  have whole := congrArg List.length (numeralPart_append (codes text))
  have whole' := congrArg width (numeralPart_append text)
  simp only [numeralPart_codes, List.length_append, width_append, length_codes] at whole whole'
  omega

theorem length_split (ascii : Ascii test) (text : List Char) :
    (split test text).1.length = width (split test text).1 := by
  have whole := congrArg List.length (split_append test (codes text))
  have whole' := congrArg width (split_append test text)
  simp only [split_codes ascii, List.length_append, width_append, length_codes] at whole whole'
  omega

theorem width_punctuation {text : List Char} {token : Token} {length : Nat}
    (read : punctuation? text = some (token, length)) : width (text.take length) = length := by
  unfold punctuation? at read
  split at read
  case h_25 => cases read
  all_goals
    cases read
    rfl

theorem width_ascii {c : Char} (ascii : c.toNat < 128) (text : List Char) :
    width (c :: text) = 1 + width text := by
  rw [← length_codes, codes_ascii ascii, List.length_cons, length_codes, Nat.add_comm]

/-- What is found at a position by bytes is found by characters, and no cut fails. -/
theorem byteStep_eq {source : String} {before rest : List Char} {c : Char}
    (split : source.toList = before ++ c :: rest) :
    byteStep source (width before) = some ((scan (width before) c rest).map fun lexeme =>
      (lexeme.token, width before + width lexeme.text)) := by
  obtain ⟨b, bs, starts, same, number⟩ := codes_front c rest
  -- An ASCII character is its own byte; of another one only what `same` tells is known.
  have narrow : c.toNat < 128 → b = c ∧ bs = codes rest := fun ascii => by
    rw [codes_ascii ascii] at starts
    exact ⟨(List.cons.inj starts).1.symm, (List.cons.inj starts).2.symm⟩
  have numeral : numeralPart (b :: bs) = _ := starts ▸ numeralPart_codes (c :: rest)
  have cutNumeral : slice? source (width before)
      (width before + width (numeralPart (c :: rest)).1) =
      some (String.ofList (numeralPart (c :: rest)).1) :=
    slice?_eq (by rw [split, List.append_assoc, numeralPart_append])
  have cutEnd : slice? source (width before) source.utf8ByteSize =
      some (String.ofList (c :: rest)) := by
    rw [utf8ByteSize_eq split]
    exact slice?_eq (by rw [split, List.append_nil])
  rw [byteStep, bytes_drop split, starts]
  dsimp only
  rw [same _ ascii_isBlank, same _ ascii_isWordStart, number, numeral, same _ ascii_quote]
  obtain ⟨result, scans⟩ := exists_scans (width before) c rest
  rw [scans.eq]
  cases scans with
  | blank blank =>
      rw [if_pos blank, Except.map, width_ascii (ascii_isBlank c blank)]
      rfl
  | number visible starts value =>
      rw [visible, starts]
      simp only [Bool.false_eq_true, if_false, if_true, length_numeralPart, cutNumeral,
        Option.map_some, String.toList_ofList, value, Except.map]
  | badNumber visible starts value =>
      rw [visible, starts]
      simp only [Bool.false_eq_true, if_false, if_true, length_numeralPart, cutNumeral,
        Option.map_some, String.toList_ofList, value, Except.map]
  | string visible other quote read =>
      obtain ⟨rfl, -⟩ := narrow (ascii_quote c quote)
      rw [visible, other, quote]
      simp only [Bool.false_eq_true, if_false, if_true, cutEnd, Option.map_some,
        String.toList_ofList, List.tail_cons, read, Except.map, width_ascii (ascii_quote b quote),
        Nat.add_assoc]
  | openString visible other quote read =>
      obtain ⟨rfl, -⟩ := narrow (ascii_quote c quote)
      rw [visible, other, quote]
      simp only [Bool.false_eq_true, if_false, if_true, cutEnd, Option.map_some,
        String.toList_ofList, List.tail_cons, read, Except.map]
  | word visible other unquoted start =>
      have ascii := ascii_isWordStart c start
      obtain ⟨rfl, rfl⟩ := narrow ascii
      have cutWord : slice? source (width before)
          (width before + (1 + width (Lexer.split isWordRest rest).1)) =
          some (String.ofList (b :: (Lexer.split isWordRest rest).1)) := by
        rw [← width_ascii ascii]
        exact slice?_eq (by rw [split, List.append_assoc, List.cons_append, split_append])
      rw [visible, other, unquoted, start]
      simp only [Bool.false_eq_true, if_false, if_true, split_codes ascii_isWordRest,
        length_split ascii_isWordRest, Nat.add_assoc, cutWord, Option.map_some, Except.map,
        width_ascii ascii]
  | punctuation visible other unquoted mark read =>
      rw [visible, other, unquoted, mark]
      simp only [Bool.false_eq_true, if_false, cutEnd, Option.bind_some, String.toList_ofList,
        read, Except.map, width_punctuation read]
  | unexpected visible other unquoted mark read =>
      rw [visible, other, unquoted, mark]
      simp only [Bool.false_eq_true, if_false, cutEnd, Option.bind_some, String.toList_ofList,
        read, Except.map]

theorem byteTokens_eq {source : String} {before text : List Char} {steps : Nat}
    (split : source.toList = before ++ text) (enough : width text < steps) :
    byteTokens source steps (width before) = some (tokens (width before) text) := by
  induction steps generalizing before text with
  | zero => cases enough
  | succ steps ih =>
      rw [byteTokens, utf8ByteSize_eq split]
      cases text with
      | nil =>
          have ended : width before + width [] ≤ width before := Nat.le_refl _
          rw [if_pos ended, tokens]
      | cons c rest =>
          have wide := width_pos (List.cons_ne_nil c rest)
          rw [if_neg (by omega), byteStep_eq split]
          cases read : scan (width before) c rest with
          | error e => rw [tokens_stuck read]; rfl
          | ok lexeme =>
              have whole := scan_append read
              have onward : source.toList = (before ++ lexeme.text) ++ lexeme.rest := by
                rw [split, List.append_assoc, whole]
              have shorter : width lexeme.rest < steps := by
                have some_ := width_pos (scan_text_ne_nil read)
                rw [← whole, width_append] at enough
                omega
              simp only [Except.map, ← width_append, ih onward shorter, Option.map_some]
              rw [tokens_cons read, width_append]
              rfl

/-- The tokens of a text account for all of its characters, and start at boundaries between
    characters, one behind the other. A text without tokens has tokens up to such a boundary, and
    the error tells what starts there. The reader that goes over the bytes comes to the same, and
    none of its cuts is inside of a character. -/
theorem tokenize_accounted (source : String) :
    (∀ located, tokenize source = .ok located →
      Accounted 0 source.toList located ∧ (located.map Located.offset).Pairwise (· < ·) ∧
      ∀ t ∈ located, String.Pos.Raw.IsValid source ⟨t.offset⟩) ∧
    (∀ e, tokenize source = .error e → ∃ before behind : String, source = before ++ behind ∧
      String.Pos.Raw.IsValid source before.rawEndPos ∧
      (∃ located, tokenize before = .ok located) ∧
      Marks before.utf8ByteSize e behind.toList) ∧
    byteTokens source (source.utf8ByteSize + 1) 0 = some (tokenize source) := by
  refine ⟨fun located found => ?_, fun e failed => ?_, ?_⟩
  · have accounted := accounted_of_tokens found
    refine ⟨accounted, accounted.increasing, fun t mem => ?_⟩
    obtain ⟨before, behind, split, starts⟩ := accounted.exists_split t mem
    rw [starts, Nat.zero_add]
    exact isValid_width split
  · obtain ⟨before, behind, located, split, found, marks⟩ := tokens_before_error failed
    have size : (String.ofList before).utf8ByteSize = width before := by
      rw [String.utf8ByteSize_ofList, width_eq]
    refine ⟨String.ofList before, String.ofList behind, ?_, ?_, ⟨located, ?_⟩, ?_⟩
    · rw [← String.ofList_append, ← split, String.ofList_toList]
    · rw [String.rawEndPos, size]
      exact isValid_width split
    · rwa [tokenize, String.toList_ofList]
    · rwa [size, String.toList_ofList, ← Nat.zero_add (width before)]
  · have whole : source.toList = [] ++ source.toList := rfl
    refine byteTokens_eq whole ?_
    rw [width_eq, String.utf8Len_toList]
    exact Nat.lt_succ_self _

end Lexer

end DecisionTable
