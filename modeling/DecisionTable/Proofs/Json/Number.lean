import DecisionTable.Json.Coercion
import DecisionTable.Proofs.Decimal.Text

/-! # Doubles as values and as text

Making a value of a double forgets only the sign of a zero (`exists_ofBinary64`), and so does
writing it: behind a sign its text is a numeral that is read as its magnitude (`exists_text`).
-/

namespace DecisionTable

namespace Json

theorem inRange_of_exactInt? {x : Binary64} {n : Int} (whole : x.exactInt? = some n) :
    -9223372036854775808 ≤ n ∧ n < 18446744073709551616 := by
  have := Binary64.exactInt?_bound whole
  omega

theorem ofBinary64_of_exactInt? {x : Binary64} {n : Int} (whole : x.exactInt? = some n) :
    ofBinary64 x = .number (.integer n (inRange_of_exactInt? whole)) := by
  unfold ofBinary64
  split
  · rename_i m same
    obtain rfl : m = n := Option.some.inj (same.symm.trans whole)
    rfl
  · rename_i same
    cases same.symm.trans whole

theorem ofBinary64_double {x : Finite64} (fraction : x.exactInt? = none) :
    ofBinary64 (.finite x) = .number (.double x) := by
  have : (Binary64.finite x).exactInt? = none := fraction
  unfold ofBinary64
  split <;> simp_all

/-- A finite double is a number as a value, and is kept but for the sign of a zero. -/
theorem exists_ofBinary64 (x : Finite64) :
    ∃ n : Number, ofBinary64 (.finite x) = .number n ∧ n.toBinary64 = .finite x.plain := by
  cases whole : x.exactInt? with
  | some n =>
      exact ⟨_, ofBinary64_of_exactInt? (x := .finite x) whole, Finite64.ofInt_of_exactInt? whole⟩
  | none =>
      have nonzero := Finite64.rank_ne_zero_of_exactInt? whole
      exact ⟨.double x, ofBinary64_double whole, by rw [Finite64.plain_eq nonzero]; rfl⟩

theorem ofBinary64_plain (x : Finite64) :
    ofBinary64 (.finite x.plain) = ofBinary64 (.finite x) := by
  cases whole : x.exactInt? with
  | some n =>
      have whole' := (Finite64.exactInt?_plain x).trans whole
      rw [ofBinary64_of_exactInt? (x := .finite x) whole,
        ofBinary64_of_exactInt? (x := .finite x.plain) whole']
  | none => rw [Finite64.plain_eq (Finite64.rank_ne_zero_of_exactInt? whole)]

end Json

namespace Binary64

theorem toList_toString (n : Int) : (toString n).toList =
    (if n < 0 then ['-'] else []) ++ Nat.toDigits 10 n.natAbs := by
  cases n with
  | ofNat m => simp [Int.toString_eq_repr, Int.repr]
  | negSucc m => simp [Int.toString_eq_repr, Int.repr]

theorem toList_writeFinite (format : NumberFormat) (x : Finite64) :
    (format.writeFinite x).toList =
      (if x.negative then ['-'] else []) ++ format.writeMagnitude x := by
  rw [NumberFormat.writeFinite, String.toList_ofList]
  generalize format.writeMagnitude x = digits
  cases x.negative <;> rfl

theorem writeMagnitude_plain {x : Finite64} (nonzero : x.rank ≠ 0) :
    NumberFormat.plain.writeMagnitude x = (Decimal.shortest .upward x).positional false := by
  rw [NumberFormat.writeMagnitude, if_neg nonzero]
  exact if_pos rfl

/-- The text of a finite double is its sign, if it is not zero, and a numeral that is read as its
    magnitude. -/
theorem exists_text (x : Finite64) : ∃ d : Decimal,
    (finite x).text.toList = (if x.plain.negative then ['-'] else []) ++ d.positional false ∧
      d.nearest false = .finite { x with negative := false } := by
  cases whole : x.exactInt? with
  | some n =>
      have text : (finite x).text = toString n := by simp [text, exactInt?, whole]
      have product := Finite64.natAbs_mul_of_exactInt? whole
      refine ⟨⟨n.natAbs, 0⟩, ?_, ?_⟩
      · rw [text, toList_toString, Finite64.negative_plain_of_exactInt? whole]
        simp [Decimal.positional]
      · rw [Decimal.nearest_whole, product, Finite64.ofUnitRatio_magnitude]
  | none =>
      have nonzero := Finite64.rank_ne_zero_of_exactInt? whole
      have text : (finite x).text = NumberFormat.plain.writeFinite x := by
        simp [text, exactInt?, whole, NumberFormat.write]
      refine ⟨Decimal.shortest .upward x, ?_, Decimal.nearest_shortest x .upward⟩
      rw [text, Finite64.plain_eq nonzero, toList_writeFinite, writeMagnitude_plain nonzero]

/-- The text of a double starts with a digit or its sign, or is the name of what has no digits. -/
theorem head_text (x : Binary64) : ∃ c rest, x.text.toList = c :: rest ∧
    (c.isDigit = true ∨ c ∈ ['-', 'N', 'i']) := by
  cases x with
  | nan => exact ⟨'N', _, rfl, .inr (by decide)⟩
  | infinite negative =>
      cases negative with
      | true => exact ⟨'-', _, rfl, .inr (by decide)⟩
      | false => exact ⟨'i', _, rfl, .inr (by decide)⟩
  | finite x =>
      obtain ⟨d, text, -⟩ := exists_text x
      rw [text]
      cases x.plain.negative with
      | true => exact ⟨'-', _, rfl, .inr (by decide)⟩
      | false =>
          obtain ⟨d', numeral, -⟩ := d.exists_numeral
          obtain ⟨c, rest, eq, digit⟩ := numeral.exists_cons
          exact ⟨c, rest, eq, .inl digit⟩

end Binary64

end DecisionTable
