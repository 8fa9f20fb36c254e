import TypedRecords.Proofs.Decimal.Nearest
import TypedRecords.Row.Decode
/-!
# The distance between two scales

A literal is brought to the scale of a decimal over the distance between the two scales. The scale of a literal fits a
word of 32 bits, and so does the distance to a smaller scale. The distance to a larger one leaves its word where the
exponent of the literal is next to the largest one, and there reading the decimal does not come back.
-/

namespace TypedRecords

-- Powers are the core library's, whatever else is in scope.
attribute [local instance (5000)] instPowNat

variable {text : String} {l : Literal} {s : Nat}

def Literal.distance (l : Literal) (s : Nat) : Int := if l.scale < s then s - l.scale else l.scale - s

theorem Literal.distance_word_iff (hlow : -2 ^ 31 < l.scale) (hhigh : l.scale < 2 ^ 31) :
    Fits 32 (l.distance s) ↔ s - l.scale < 2 ^ 31 := by
  unfold distance Fits
  norm_num at hlow hhigh ⊢
  split <;> omega

namespace Decimal

theorem of_literal_panic_iff (p : Nat) : ofLiteral text p s = .error .panic ↔
    ∃ l, Literal.parse? text = some l ∧ 2 ^ 31 ≤ s - l.scale := by
  have hwrapped : ofLiteral text p s = .error .panic ↔ ∃ bits, tryLiteral text p s = .error (.wrapped bits) := by
    rw [ofLiteral]
    cases tryLiteral text p s with
    | ok d => simp
    | error fault => cases fault <;> simp
  rw [hwrapped]
  constructor
  · rintro ⟨bits, h⟩
    obtain ⟨l, hl, hwraps⟩ := try_literal_wraps_iff.mp h
    exact ⟨l, hl, ((Literal.rescale_wraps_iff (Literal.parse_fits hl) (Literal.parse_scale hl).2).mp hwraps).2⟩
  · rintro ⟨l, hl, hfar⟩
    exact ⟨32, try_literal_wraps_iff.mpr ⟨l, hl, Literal.rescale_far hfar⟩⟩

end Decimal

theorem Decode.decimal_panic_iff (o : Options) (p : Nat) : value o (.decimal p s) (.num text) = .error .panic ↔
    ∃ l, Literal.parse? text = some l ∧ 2 ^ 31 ≤ s - l.scale := by
  have hread : value o (.decimal p s) (.num text) = (Decimal.ofLiteral text p s).map .decimal := by
    unfold value
    rfl
  rw [hread, ← Decimal.of_literal_panic_iff p]
  cases Decimal.ofLiteral text p s <;> simp [Except.map]

/-- The distance from the scale of a literal to that of a decimal type fits its word, unless the type's is `2 ^ 31` or
more above it, which is so for exponents next to the largest only. Where it does not fit, and nowhere else, bringing the
literal to the scale, reading it as a decimal and decoding it as a token stop at the distance. -/
theorem Literal.distance_fits_iff (h : parse? text = some l) (hs : s ≤ 255) (p : Nat) (o : Options) :
    (Fits 32 (l.distance s) ↔ s - l.scale < 2 ^ 31) ∧
      (l.rescale s = .error (.wrapped 32) ↔ ¬ Fits 32 (l.distance s)) ∧
      (Decimal.ofLiteral text p s = .error .panic ↔ ¬ Fits 32 (l.distance s)) ∧
      (Decode.value o (.decimal p s) (.num text) = .error .panic ↔ ¬ Fits 32 (l.distance s)) ∧
      (¬ Fits 32 (l.distance s) → l.scale < 256 - 2 ^ 31) := by
  obtain ⟨hlow, hhigh⟩ := parse_scale h
  have hword : Fits 32 (l.distance s) ↔ s - l.scale < 2 ^ 31 := distance_word_iff hlow hhigh
  have hthis : (∃ l, parse? text = some l ∧ 2 ^ 31 ≤ s - l.scale) ↔ 2 ^ 31 ≤ s - l.scale := by
    simp only [h, Option.some.injEq, exists_eq_left']
  rw [rescale_wraps_iff (parse_fits h) hhigh, Decimal.of_literal_panic_iff, Decode.decimal_panic_iff, hthis, hword, not_lt]
  refine ⟨Iff.rfl, and_iff_right rfl, Iff.rfl, Iff.rfl, ?_⟩
  intro hfar
  norm_num at hfar ⊢
  omega

/-- The largest distance that fits its word, and one place more. -/
theorem Literal.distance_fits_iff_limit :
    ∃ l, parse? "25e2147483646" = some l ∧ Fits 32 (l.distance 1) ∧ l.rescale 2 = .error (.wrapped 32) ∧
      Decimal.ofLiteral "25e2147483646" 38 1 ≠ .error .panic ∧
      Decode.value {} (.decimal 38 2) (.num "25e2147483646") = .error .panic := by
  have hparse : parse? "25e2147483646" = some ⟨25, -2147483646⟩ := by decide
  obtain ⟨hone, -, hread, -⟩ := distance_fits_iff hparse (s := 1) (by decide) 38 {}
  obtain ⟨htwo, hrescale, -, hdecode, -⟩ := distance_fits_iff hparse (s := 2) (by decide) 38 {}
  have hnear : Fits 32 (Literal.distance ⟨25, -2147483646⟩ 1) := hone.mpr (by decide)
  have hfar : ¬ Fits 32 (Literal.distance ⟨25, -2147483646⟩ 2) := htwo.not.mpr (by decide)
  exact ⟨_, hparse, hnear, hrescale.mpr hfar, fun hpanic => hread.mp hpanic hnear, hdecode.mpr hfar⟩

/-- The largest exponent is too far from the first decimal place. -/
theorem Literal.largest_exponent_wraps :
    (¬ ∀ text l, parse? text = some l → ∀ s ≤ 255, Fits 32 (l.distance s)) ∧
      Decode.value {} (.decimal 38 1) (.num "1e2147483647") = .error .panic := by
  have hparse : parse? "1e2147483647" = some ⟨1, -2147483647⟩ := by decide
  constructor
  · intro hall
    have hone := hall _ _ hparse 1 (by decide)
    revert hone
    decide
  · exact (Decode.decimal_panic_iff {} 38).mpr ⟨_, hparse, by decide⟩

end TypedRecords
