import DecisionTable.Proofs.Formula.Lexing

/-! # The lexemes of a text

A text with tokens is its lexemes, each of which has its token on its own too, with blank
characters between them (`Accounted`). Of a text without tokens this holds up to the place that
the error names (`Marks`). Both rest on one fact: a lexeme is found again in a text that is cut off
anywhere behind it (`scan_cut`).
-/

namespace DecisionTable

namespace Lexer

variable {more : List Char}

theorem split_cut {test : Char → Bool} {text : List Char} (front : more <+: (split test text).2) :
    split test ((split test text).1 ++ more) = ((split test text).1, more) := by
  induction text with
  | nil =>
      obtain rfl := List.prefix_nil.1 front
      rfl
  | cons c text ih =>
      cases passes : test c with
      | true =>
          simp only [split, List.takeWhile_cons, List.dropWhile_cons, passes, if_true,
            List.cons_append, Prod.mk.injEq, List.cons.injEq, true_and] at front ih ⊢
          exact ih front
      | false =>
          simp only [split, List.takeWhile_cons, List.dropWhile_cons, passes, Bool.false_eq_true,
            if_false, List.nil_append] at front ⊢
          rcases List.prefix_cons_iff.1 front with rfl | ⟨rest, rfl, -⟩
          · rfl
          · simp [passes]

theorem of_mem_split {test : Char → Bool} {c : Char} {text : List Char}
    (mem : c ∈ (split test text).1) : test c = true :=
  List.all_eq_true.1 List.all_takeWhile c mem

/-- Where a text does not start with what passes a test, no front part of it does. -/
theorem split_nil_of_front {test : Char → Bool} {text : List Char} (front : more <+: text)
    (none : (split test text).1 = []) : (split test more).1 = [] := by
  cases more with
  | nil => rfl
  | cons c more =>
      obtain ⟨behind, rfl⟩ := front
      cases passes : test c <;> simp_all [split]

theorem signPart_front {text : List Char} (front : more <+: text) :
    (signPart more).2 <+: (signPart text).2 := by
  rcases more with _ | ⟨c, more⟩
  · exact List.nil_prefix
  · obtain ⟨behind, rfl⟩ := front
    by_cases plus : c = '+'
    · subst plus
      exact List.prefix_append _ _
    · by_cases minus : c = '-'
      · subst minus
        exact List.prefix_append _ _
      · simp [signPart, plus, minus]

theorem signPart_digit {c : Char} (digit : c.isDigit = true) (text more : List Char) :
    signPart ((signPart text).1 ++ c :: more) = ((signPart text).1, c :: more) := by
  have sign : (signPart text).1 = ['+'] ∨ (signPart text).1 = ['-'] ∨ (signPart text).1 = [] := by
    unfold signPart
    split <;> simp
  rcases sign with sign | sign | sign <;> rw [sign]
  · rfl
  · rfl
  · have plus : c ≠ '+' := fun same => by simp [same] at digit
    have minus : c ≠ '-' := fun same => by simp [same] at digit
    simp [signPart, plus, minus]

theorem exponentPart_cons (mark : Char) (text : List Char) :
    exponentPart (mark :: text) =
      if (mark == 'e' || mark == 'E') && !(split Char.isDigit (signPart text).2).1.isEmpty then
        (mark :: ((signPart text).1 ++ (split Char.isDigit (signPart text).2).1),
          (split Char.isDigit (signPart text).2).2)
      else ([], mark :: text) := rfl

theorem exponentPart_cut {text : List Char} (front : more <+: (exponentPart text).2) :
    exponentPart ((exponentPart text).1 ++ more) = ((exponentPart text).1, more) := by
  cases text with
  | nil =>
      obtain rfl := List.prefix_nil.1 front
      rfl
  | cons mark text =>
      rw [exponentPart_cons] at front ⊢
      by_cases marked : ((mark == 'e' || mark == 'E') &&
          !(split Char.isDigit (signPart text).2).1.isEmpty) = true
      · rw [if_pos marked] at front ⊢
        have digits := split_cut front
        have signed : signPart ((signPart text).1 ++
            ((split Char.isDigit (signPart text).2).1 ++ more)) =
            ((signPart text).1, (split Char.isDigit (signPart text).2).1 ++ more) := by
          cases read : (split Char.isDigit (signPart text).2).1 with
          | nil => simp [read] at marked
          | cons d ds =>
              have digit : d.isDigit = true :=
                @of_mem_split Char.isDigit _ _ (read ▸ List.mem_cons_self)
              exact signPart_digit digit text (ds ++ more)
        rw [List.cons_append, List.append_assoc, exponentPart_cons, signed]
        simp only [digits, marked, if_true]
      · rw [if_neg marked] at front ⊢
        rcases List.prefix_cons_iff.1 front with rfl | ⟨rest, rfl, within⟩
        · rfl
        · -- Fewer characters cannot have more digits at their front.
          rw [List.nil_append, exponentPart_cons, if_neg]
          intro marked'
          obtain ⟨isMark, digits⟩ := Bool.and_eq_true_iff.1 marked'
          refine marked (Bool.and_eq_true_iff.2 ⟨isMark, ?_⟩)
          by_cases none : (split Char.isDigit (signPart text).2).1 = []
          · simp [split_nil_of_front (signPart_front within) none] at digits
          · simpa using none

theorem numeralPart_cut {text : List Char} (front : more <+: (numeralPart text).2) :
    numeralPart ((numeralPart text).1 ++ more) = ((numeralPart text).1, more) := by
  simp only [numeralPart] at front ⊢
  generalize mantissa : split (fun c => c.isDigit || c == '.') text = m at front ⊢
  have onward : (exponentPart m.2).1 ++ more <+: m.2 := by
    conv => rhs; rw [← exponentPart_append m.2]
    exact (List.prefix_append_right_inj _).2 front
  rw [← mantissa] at onward
  have cut := split_cut onward
  rw [mantissa] at cut
  simp only [List.append_assoc, cut, exponentPart_cut front]

/-- The equations are numbered as the alternatives of `punctuation?`. -/
theorem punctuation?_cut {text : List Char} {token : Token} {length : Nat}
    (read : punctuation? text = some (token, length)) (front : more <+: text.drop length) :
    punctuation? (text.take length ++ more) = some (token, length) := by
  have apart : ∀ {rest : List Char}, more <+: rest → (∀ tail, rest = '=' :: tail → False) →
      ∀ tail, more = '=' :: tail → False := by
    intro rest front no tail starts
    obtain ⟨behind, rfl⟩ := starts ▸ front
    exact no _ rfl
  unfold punctuation? at read
  split at read
  case h_25 => cases read
  all_goals cases read
  case h_3 no => exact punctuation?.eq_3 _ (apart front no)
  case h_4 no => exact punctuation?.eq_4 _ (apart front no)
  case h_9 no => exact punctuation?.eq_9 _ (apart front no)
  case h_10 no => exact punctuation?.eq_10 _ (apart front no)
  case h_11 no => exact punctuation?.eq_11 _ (fun _ => apart front no _) (apart front no)
  case h_17 no => exact punctuation?.eq_17 _ (fun _ => apart front no _) (apart front no)
  all_goals rfl

theorem startsNumber_front {c : Char} {rest : List Char} (front : more <+: rest)
    (none : startsNumber c rest = false) : startsNumber c more = false := by
  cases more with
  | nil => simp_all [startsNumber]
  | cons d more =>
      obtain ⟨behind, rfl⟩ := front
      exact none

theorem numeralPart_head {c : Char} {rest : List Char} (starts : startsNumber c rest = true) :
    ∃ tail, (numeralPart (c :: rest)).1 = c :: tail ∧
      ∀ more, startsNumber c (tail ++ more) = true := by
  rw [startsNumber, Bool.or_eq_true, Bool.and_eq_true] at starts
  rcases starts with digit | ⟨point, fraction⟩
  · refine ⟨(split (fun c => c.isDigit || c == '.') rest).1 ++ (exponentPart
      (split (fun c => c.isDigit || c == '.') rest).2).1, ?_,
      fun more => by simp [startsNumber, digit]⟩
    simp [numeralPart, split, digit]
  · cases rest with
    | nil => cases fraction
    | cons d rest =>
        have digit : d.isDigit = true := fraction
        refine ⟨d :: ((split (fun c => c.isDigit || c == '.') rest).1 ++ (exponentPart
          (split (fun c => c.isDigit || c == '.') rest).2).1), ?_,
          fun more => by simp [startsNumber, point, digit]⟩
        simp [numeralPart, split, point, digit]

variable {offset : Nat} {c : Char} {rest : List Char}

/-- A lexeme is found again where the text is cut off behind it. -/
theorem scan_cut {lexeme : Lexeme} (read : scan offset c rest = .ok lexeme)
    (front : more <+: lexeme.rest) :
    ∃ tail, lexeme.text = c :: tail ∧
      scan offset c (tail ++ more) = .ok { lexeme with rest := more } := by
  have whole := scan_append read
  have shorter : ∀ tail, lexeme.text = c :: tail → tail ++ more <+: rest := by
    intro tail begins
    rw [begins, List.cons_append] at whole
    rw [← (List.cons.inj whole).2]
    exact (List.prefix_append_right_inj tail).2 front
  cases scans_of_scan read with
  | blank blank => exact ⟨[], rfl, (Scans.blank blank).eq⟩
  | @number x visible starts value =>
      obtain ⟨tail, begins, starts'⟩ := numeralPart_head starts
      have again := numeralPart_cut front
      rw [begins, List.cons_append] at again
      have found : Decimal.read? (numeralPart (c :: (tail ++ more))).1 = some x := by
        rw [again, ← begins]
        exact value
      refine ⟨tail, begins, (Scans.number visible (starts' more) found).eq.trans ?_⟩
      rw [again, ← begins]
  | string visible other quote found =>
      have other' := startsNumber_front (shorter _ rfl) other
      exact ⟨_, rfl, (Scans.string visible other' quote (quoted?_cut found more)).eq⟩
  | word visible other unquoted start =>
      have other' := startsNumber_front (shorter _ rfl) other
      refine ⟨_, rfl, (Scans.word visible other' unquoted start).eq.trans ?_⟩
      rw [split_cut front]
  | @punctuation token length visible other unquoted mark found =>
      obtain ⟨n, rfl⟩ := Nat.exists_eq_succ_of_ne_zero (Nat.ne_of_gt (punctuation?_pos found))
      have length : (c :: rest.take n).length = n + 1 :=
        List.length_take_of_le (punctuation?_le found)
      have other' := startsNumber_front (shorter (rest.take n) rfl) other
      have again : punctuation? (c :: (rest.take n ++ more)) = some (token, n + 1) :=
        punctuation?_cut found front
      refine ⟨rest.take n, rfl, (Scans.punctuation visible other' unquoted mark again).eq.trans ?_⟩
      rw [← List.cons_append, List.take_left' length, List.drop_left' length]
      rfl

theorem tokens_stuck {e : ParseError} (failed : scan offset c rest = .error e) :
    tokens offset (c :: rest) = .error e := by
  rw [tokens]
  split <;> simp_all

/-! ## Texts with tokens -/

/-- A text told piece by piece: blank characters, and lexemes that have their token on their own. A
    token has as its offset the bytes before its lexeme. -/
inductive Accounted : Nat → List Char → List Located → Prop
  | nil (offset : Nat) : Accounted offset [] []
  | blank {offset : Nat} {c : Char} {text : List Char} {located : List Located}
      (blank : isBlank c = true) (behind : Accounted (offset + c.utf8Size) text located) :
      Accounted offset (c :: text) located
  | lexeme {offset : Nat} {lexeme text : List Char} {token : Token} {located : List Located}
      (alone : tokenize (String.ofList lexeme) = .ok [⟨token, 0⟩])
      (behind : Accounted (offset + width lexeme) text located) :
      Accounted offset (lexeme ++ text) (⟨token, offset⟩ :: located)

theorem scan_blank {lexeme : Lexeme} (read : scan offset c rest = .ok lexeme)
    (blank : lexeme.token = none) : isBlank c = true ∧ lexeme = ⟨[c], none, rest⟩ := by
  cases scans_of_scan read with
  | blank isBlank => exact ⟨isBlank, rfl⟩
  | _ => cases blank

theorem width_pos {text : List Char} (some_ : text ≠ []) : 0 < width text := by
  cases text with
  | nil => exact absurd rfl some_
  | cons c text => exact Nat.add_pos_left c.utf8Size_pos _

/-- A lexeme has its token on its own. -/
theorem tokenize_lexeme {lexeme : Lexeme} {token : Token} (read : scan offset c rest = .ok lexeme)
    (visible : lexeme.token = some token) :
    tokenize (String.ofList lexeme.text) = .ok [⟨token, 0⟩] := by
  obtain ⟨tail, begins, alone⟩ := scan_cut read List.nil_prefix
  rw [List.append_nil] at alone
  rw [tokenize, String.toList_ofList, begins, tokens_cons (scan_offset alone 0), tokens]
  simp [visible, Except.map]

theorem accounted_of_tokens {text : List Char} {located : List Located}
    (found : tokens offset text = .ok located) : Accounted offset text located := by
  fun_induction tokens offset text generalizing located with
  | case1 =>
      cases found
      exact .nil _
  | case2 => cases found
  | case3 => cases found
  | case4 offset c rest lexeme read shorter others onward ih =>
      cases found
      cases visible : lexeme.token with
      | none =>
          obtain ⟨blank, rfl⟩ := scan_blank read visible
          exact .blank blank (ih onward)
      | some token =>
          rw [← scan_append read]
          exact .lexeme (tokenize_lexeme read visible) (ih onward)

namespace Accounted

variable {text : List Char} {located : List Located}

/-- Each token starts somewhere in the text. -/
theorem exists_split (accounted : Accounted offset text located) :
    ∀ t ∈ located, ∃ before behind, text = before ++ behind ∧
      t.offset = offset + width before := by
  induction accounted with
  | nil => exact fun _ mem => nomatch mem
  | @blank offset c text located blank _ ih =>
      intro t mem
      obtain ⟨before, behind, rfl, starts⟩ := ih t mem
      exact ⟨c :: before, behind, rfl, by rw [starts, Nat.add_assoc]; rfl⟩
  | @lexeme offset lexeme text token located alone _ ih =>
      intro t mem
      rcases List.mem_cons.1 mem with rfl | mem
      · exact ⟨[], lexeme ++ text, rfl, rfl⟩
      · obtain ⟨before, behind, rfl, starts⟩ := ih t mem
        refine ⟨lexeme ++ before, behind, (List.append_assoc ..).symm, ?_⟩
        rw [starts, width_append, Nat.add_assoc]

theorem increasing (accounted : Accounted offset text located) :
    (located.map Located.offset).Pairwise (· < ·) := by
  induction accounted with
  | nil => exact .nil
  | blank _ _ ih => exact ih
  | @lexeme offset lexeme text token located alone behind ih =>
      refine List.pairwise_cons.2 ⟨fun later mem => ?_, ih⟩
      obtain ⟨t, there, rfl⟩ := List.mem_map.1 mem
      obtain ⟨before, -, -, starts⟩ := behind.exists_split t there
      have wide : 0 < width lexeme := width_pos fun empty => by
        rw [empty, tokenize, String.toList_ofList, tokens] at alone
        cases alone
      dsimp only
      omega

end Accounted

/-! ## Texts without tokens -/

/-- What an error at an offset tells of the text that starts there. -/
inductive Marks (offset : Nat) : ParseError → List Char → Prop
  | unexpectedChar (c : Char) (rest : List Char) :
      Marks offset (.unexpectedChar c offset) (c :: rest)
  | invalidNumber {numeral : List Char} (some_ : numeral ≠ []) (rest : List Char) :
      Marks offset (.invalidNumber (String.ofList numeral) offset) (numeral ++ rest)
  | unterminatedString {quote : Char} (isQuote : quote = '\'' ∨ quote = '"') (rest : List Char) :
      Marks offset (.unterminatedString offset) (quote :: rest)

theorem marks_of_scan {e : ParseError} (failed : scan offset c rest = .error e) :
    Marks offset e (c :: rest) := by
  cases scans_of_scan failed with
  | badNumber visible starts value =>
      have marks := @Marks.invalidNumber offset _ (numeralPart_ne_nil starts)
        (numeralPart (c :: rest)).2
      rwa [numeralPart_append] at marks
  | openString visible other quote read => exact .unterminatedString (by simpa using quote) rest
  | unexpected => exact .unexpectedChar c rest

/-- A text has tokens up to the place of the error. -/
theorem tokens_before_error {text : List Char} {e : ParseError}
    (failed : tokens offset text = .error e) :
    ∃ before behind located, text = before ++ behind ∧ tokens offset before = .ok located ∧
      Marks (offset + width before) e behind := by
  fun_induction tokens offset text with
  | case1 => cases failed
  | case2 offset c rest e' stuck =>
      cases failed
      exact ⟨[], c :: rest, [], rfl, by rw [tokens], marks_of_scan stuck⟩
  | case3 offset c rest lexeme read shorter e' onward ih =>
      cases failed
      obtain ⟨before, behind, located, split, found, marks⟩ := ih onward
      obtain ⟨tail, begins, again⟩ := scan_cut read (split ▸ List.prefix_append before behind)
      refine ⟨lexeme.text ++ before, behind, lexeme.token.toList.map (⟨·, offset⟩) ++ located,
        ?_, ?_, ?_⟩
      · rw [List.append_assoc, ← split, scan_append read]
      · rw [begins, List.cons_append, tokens_cons again]
        simp only [found, Except.map]
      · rwa [width_append, ← Nat.add_assoc]
  | case4 => cases failed

end Lexer

end DecisionTable
