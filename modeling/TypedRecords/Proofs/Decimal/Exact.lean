import TypedRecords.Proofs.Decimal.Words
/-!
# Exact decimals

The decimal of a literal is the number that the literal states, at the scale of the decimal and rounded to the nearest
integer there. There is one whenever that integer has few enough digits, as far as the parts of the literal fit their
words.
-/

namespace TypedRecords

-- Powers are the core library's, whatever else is in scope.
attribute [local instance (5000)] instPowNat

open Text

namespace Decimal

variable {text : String} {p s : Nat} {d : Decimal} {w : WrittenNumber}

theorem of_literal_word (h : ofLiteral text p s = .ok d) : Words.decimal text p s = .ok d := by
  rw [Words.decimal_given, try_literal_iff]
  exact of_literal_iff.mp h

theorem of_literal_rounds (h : ofLiteral w.text p s = .ok d) : d.unscaled = roundAway (w.value * 10 ^ s) := by
  obtain ⟨l, u, hl, hu, hd⟩ := of_literal_iff.mp h
  have hround := Literal.rescale_value (Literal.parse_fits hl) (Literal.parse_scale hl).2 hu
  rw [(of_unscaled_iff.mp hd).1, hround, Literal.parse_value hl]

/-- A decimal that is read has the declared type and the value of its literal, rounded to the declared scale. No word of
128 bits on the way wraps around, whether a decimal is read or not. -/
theorem of_literal_exact (text : String) (p s : Nat) :
    Words.decimal text p s ≠ .error (.wrapped 128) ∧
      ∀ d, ofLiteral text p s = .ok d →
        Words.decimal text p s = .ok d ∧ (∃ w : WrittenNumber, w.text = text) ∧
          d.precision = p ∧ d.scale = s ∧ 0 < p ∧ p ≤ maxPrecision ∧ s ≤ p ∧ d.unscaled.natAbs < 10 ^ p ∧
          ∀ w : WrittenNumber, w.text = text → d.unscaled = roundAway (w.value * 10 ^ s) := by
  constructor
  · intro h
    exact absurd (Words.decimal_wraps h) (by decide)
  · intro d h
    obtain ⟨l, u, hl, -, hd⟩ := of_literal_iff.mp h
    obtain ⟨-, hprecision, hscale⟩ := of_unscaled_iff.mp hd
    have hwritten := Literal.parse_text_written hl
    have hword := of_literal_word h
    refine ⟨hword, hwritten, hprecision, hscale, ?_⟩
    subst hprecision hscale
    refine ⟨d.precision_pos, d.precision_le, d.scale_le, d.unscaled_lt, ?_⟩
    rintro w rfl
    exact of_literal_rounds h

/-- A tie under a minus sign and an exponent. -/
theorem tie_away_exact : ∃ d, ofLiteral "-1005e-3" 5 2 = .ok d ∧ d.unscaled = -101 ∧
    Words.decimal "-1005e-3" 5 2 = .ok d ∧
      ∀ w : WrittenNumber, w.text = "-1005e-3" → roundAway (w.value * 10 ^ 2) = -101 := by
  have hread : ofLiteral "-1005e-3" 5 2 = .ok ⟨-101, 5, 2, by decide, by decide, by decide, by decide⟩ := by decide
  obtain ⟨hword, -, -, -, -, -, -, -, hvalue⟩ := (of_literal_exact "-1005e-3" 5 2).2 _ hread
  exact ⟨_, hread, rfl, hword, fun w hw => (hvalue w hw).symm⟩

/-- A literal whose parts fit their words has a decimal of every type that has room for the rounded number. A zero that is
to be scaled up by more places than a word has digits is left out. -/
theorem of_literal_in_range (hp : 0 < p) (hmax : p ≤ maxPrecision) (hs : s ≤ p) (hrange : w.InRange)
    (hzero : digitsValue w.digits = 0 → s - (w.fractionDigits.length - w.power) ≤ maxPrecision)
    (hlt : (roundAway (w.value * 10 ^ s)).natAbs < 10 ^ p) : ∃ d, ofLiteral w.text p s = .ok d := by
  have hl : Literal.parse? w.text = some w.literal := (Literal.parse_written_iff w).mpr ⟨hrange, rfl⟩
  have hwide : (roundAway (w.value * 10 ^ s)).natAbs < 10 ^ maxPrecision :=
    hlt.trans_le (Nat.pow_le_pow_right (by decide) hmax)
  have hu : w.literal.rescale s = .ok (roundAway (w.literal.value * 10 ^ s)) := by
    apply Literal.rescale_exists (Literal.parse_fits hl) (Literal.parse_scale hl).2
    · intro hunscaled
      apply hzero
      change WrittenNumber.signed w.sign (digitsValue w.digits) = 0 at hunscaled
      unfold WrittenNumber.signed at hunscaled
      split at hunscaled <;> omega
    · rwa [w.literal_value]
  rw [w.literal_value] at hu
  obtain ⟨d, hd, -⟩ := of_unscaled_some hp hmax hs hlt
  exact ⟨d, of_literal_iff.mpr ⟨_, _, hl, hu, hd⟩⟩

/-- A number has a decimal exactly when its digits fit 128 bits, trailing zeros of the fraction included, and the rounded
number fits the precision. The exponent and the length of the fraction leave the scale in its word, and a zero is not
scaled up by more places than a word has digits. -/
theorem of_literal_room_iff (hp : 0 < p) (hmax : p ≤ maxPrecision) (hs : s ≤ p) :
    (∀ text v, Json.number? text = some v → ∃ w : WrittenNumber, w.text = text) ∧
      ∀ w : WrittenNumber, -1000 ≤ w.power → w.power ≤ 1000 → w.fractionDigits.length < 2 ^ 31 - 1000 →
        (digitsValue w.digits = 0 → s - (w.fractionDigits.length - w.power) ≤ maxPrecision) →
        ((∃ d, ofLiteral w.text p s = .ok d) ↔
          digitsValue w.digits < 2 ^ 127 ∧ (roundAway (w.value * 10 ^ s)).natAbs < 10 ^ p) := by
  constructor
  · intro text v h
    exact Json.number_written h
  · intro w hlow hhigh hlength hzero
    constructor
    · rintro ⟨d, hd⟩
      obtain ⟨l, u, hl, -, hu⟩ := of_literal_iff.mp hd
      obtain ⟨⟨⟨-, hdigits⟩, -, -, -⟩, -⟩ := (Literal.parse_written_iff w).mp hl
      obtain ⟨-, rfl, rfl⟩ := of_unscaled_iff.mp hu
      rw [← of_literal_rounds hd]
      exact ⟨by exact_mod_cast hdigits, d.unscaled_lt⟩
    · rintro ⟨hdigits, hlt⟩
      have hrange : w.InRange := by
        constructor
        · exact fits_word hdigits
        · constructor <;> norm_num <;> omega
        · constructor <;> norm_num
          omega
        · constructor <;> norm_num <;> omega
      exact of_literal_in_range hp hmax hs hrange hzero hlt

/-- Seven digits that five are enough for, once the number is rounded. -/
theorem seven_digits_room : ∃ w : WrittenNumber, w.text = "1234567e-2" ∧
    (Json.number? w.text).isSome = true ∧ ∃ d, ofLiteral w.text 5 0 = .ok d := by
  let w : WrittenNumber := ⟨none, "1234567".toList, none, some ('e', some true, ['2']), by decide, by decide⟩
  have hpower : w.power = -2 := by decide
  have hdigits : digitsValue w.digits = 1234567 := by decide
  have hwhole : digitsValue w.whole = 1234567 := by decide
  have hfraction : digitsValue w.fractionDigits = 0 := by decide
  have hround : roundAway (w.value * 10 ^ 0) = 12346 := by
    apply round_away_eq
    have hvalue : w.value * 10 ^ 0 - (12346 : ℤ) = -(33 / 100) := by
      rw [WrittenNumber.value, hpower, hwhole, hfraction, if_neg (by decide)]
      norm_num
    rw [NearestAway, hvalue]
    norm_num
  have hroom := (of_literal_room_iff (p := 5) (s := 0) (by decide) (by decide) (by decide)).2 w (by rw [hpower]; decide)
    (by rw [hpower]; decide) (by decide) (by rw [hdigits]; decide)
  refine ⟨w, rfl, by decide, hroom.mpr ?_⟩
  rw [hdigits, hround]
  decide

/-- A one under every type, but for the zeros at its end. -/
theorem trailing_zeros_refused : ∃ w : WrittenNumber, (Json.number? w.text).isSome = true ∧ w.power = 0 ∧
    (roundAway (w.value * 10 ^ 0)).natAbs < 10 ^ 1 ∧
      ofLiteral w.text 1 0 = .error (.decimalOverflow w.text 1 0) := by
  let w : WrittenNumber := ⟨none, ['1'], some (List.replicate 39 '0'), none, by decide, by decide⟩
  have hpower : w.power = 0 := by decide
  have hwhole : digitsValue w.whole = 1 := by decide
  have hfraction : digitsValue w.fractionDigits = 0 := by decide
  have hvalue : w.value * 10 ^ 0 = ((1 : ℤ) : ℚ) := by
    rw [WrittenNumber.value, hpower, hwhole, hfraction, if_neg (by decide)]
    norm_num
  refine ⟨w, by decide, hpower, ?_, by decide⟩
  rw [hvalue, round_away_int]
  decide

end Decimal

end TypedRecords
