import Mathlib.Algebra.Order.Round
import Mathlib.Data.Int.DivMod
import Mathlib.Data.Rat.Floor
import Mathlib.Tactic.Linarith
import TypedRecords.Proofs.Decimal.Written
/-!
# Rounding to a scale

A literal at another scale is the nearest integer to its value at that scale, the one farther from zero where two are
equally near. It has no such integer only where the digits that the value needs do not fit anyway, zero aside.
-/

namespace TypedRecords

/-- No integer is nearer, and at a tie the integer is the one farther from zero. -/
def NearestAway (q : ℚ) (z : ℤ) : Prop := |q - z| ≤ 1 / 2 ∧ (|q - z| = 1 / 2 → |q| < |(z : ℚ)|)

def roundAway (q : ℚ) : ℤ := if q < 0 then -⌊-q + 1 / 2⌋ else ⌊q + 1 / 2⌋

variable {q : ℚ} {z : ℤ}

theorem nearest_away_neg : NearestAway (-q) (-z) ↔ NearestAway q z := by
  have hdiff : |-q - ((-z : ℤ) : ℚ)| = |q - z| := by
    rw [← abs_neg]
    push_cast
    ring_nf
  have habs : |((-z : ℤ) : ℚ)| = |(z : ℚ)| := by
    push_cast
    exact abs_neg _
  rw [NearestAway, NearestAway, hdiff, abs_neg, habs]

theorem floor_nearest (hq : 0 ≤ q) : NearestAway q ⌊q + 1 / 2⌋ := by
  have hlow := Int.floor_le (q + 1 / 2)
  have hhigh := Int.lt_floor_add_one (q + 1 / 2)
  constructor
  · rw [abs_le]
    constructor <;> linarith
  · intro htie
    -- The floor leaves the smaller of two equally near integers out.
    have hup : q < ⌊q + 1 / 2⌋ := by
      by_contra hle
      rw [abs_of_nonneg (by linarith)] at htie
      linarith
    rw [abs_of_nonneg hq, abs_of_nonneg (by linarith)]
    exact hup

theorem round_away_nearest (q : ℚ) : NearestAway q (roundAway q) := by
  unfold roundAway
  split
  · next hq =>
    have h := floor_nearest (q := -q) (by linarith)
    rw [← nearest_away_neg, neg_neg]
    exact h
  · next hq => exact floor_nearest (not_lt.mp hq)

/-- Two integers that are nearest are half a unit away on both sides, and zero is not on both. -/
theorem nearest_away_unique {a b : ℤ} (ha : NearestAway q a) (hb : NearestAway q b) : a = b := by
  by_contra hne
  wlog hlt : a < b generalizing a b
  · exact this hb ha (Ne.symm hne) (by omega)
  obtain ⟨ha, hatie⟩ := ha
  obtain ⟨hb, hbtie⟩ := hb
  have hgap : (a : ℚ) + 1 ≤ b := by exact_mod_cast hlt
  have hqa := abs_le.mp ha
  have hqb := abs_le.mp hb
  have hsmall := hatie (by rw [abs_of_nonneg] <;> linarith)
  have hlarge := hbtie (by rw [abs_of_nonpos] <;> linarith)
  by_cases hsign : 0 ≤ a
  · -- Above zero the smaller of the two is nearer to zero than the point.
    have hnonneg : (0 : ℚ) ≤ a := by exact_mod_cast hsign
    rw [abs_of_nonneg hnonneg, abs_of_nonneg (by linarith)] at hsmall
    linarith
  · have hnonpos : (b : ℚ) ≤ 0 := by
      have hbelow : (a : ℚ) ≤ -1 := by exact_mod_cast (show a ≤ -1 by omega)
      linarith
    rw [abs_of_nonpos hnonpos, abs_of_nonpos (by linarith)] at hlarge
    linarith

theorem round_away_eq (h : NearestAway q z) : roundAway q = z := nearest_away_unique (round_away_nearest q) h

theorem round_away_int (z : ℤ) : roundAway (z : ℚ) = z := by
  apply round_away_eq
  constructor
  · norm_num
  · intro htie
    rw [sub_self] at htie
    norm_num at htie

theorem round_away_neg (q : ℚ) : roundAway (-q) = -roundAway q :=
  round_away_eq (nearest_away_neg.mpr (round_away_nearest q))

theorem round_away_small (h : |q| < 1 / 2) : roundAway q = 0 := by
  apply round_away_eq
  constructor
  · rw [Int.cast_zero, sub_zero]
    exact le_of_lt h
  · intro htie
    rw [Int.cast_zero, sub_zero] at htie
    exact absurd htie (ne_of_lt h)

namespace Literal

variable {l : Literal} {p s : Nat} {u : Int}

/-- The remainder against half the divisor decides. -/
theorem floor_half_quotient (n : Nat) {d : Nat} (hd : 0 < d) :
    ⌊(n / d : ℚ) + 1 / 2⌋ = ((n / d + if d ≤ 2 * (n % d) then 1 else 0 : Nat) : Int) := by
  have hdq : (0 : ℚ) < d := by exact_mod_cast hd
  have hsplit : d * (n / d) + n % d = n := Nat.div_add_mod n d
  have hrest : n % d < d := Nat.mod_lt n hd
  generalize n / d = k at hsplit ⊢
  generalize n % d = r at hsplit hrest ⊢
  have hquotient : (n / d : ℚ) = k + r / d := by
    rw [← hsplit]
    push_cast
    field_simp
  have hlt : (r : ℚ) / d < 1 := (div_lt_one hdq).mpr (by exact_mod_cast hrest)
  have hnonneg : (0 : ℚ) ≤ r / d := by positivity
  rw [Int.floor_eq_iff, hquotient]
  by_cases hhalf : d ≤ 2 * r
  · have hhalfq : (1 : ℚ) / 2 ≤ r / d := by
      rw [div_le_div_iff₀ (by norm_num) hdq]
      exact_mod_cast (show 1 * d ≤ r * 2 by omega)
    rw [if_pos hhalf]
    push_cast
    constructor <;> linarith
  · have hhalfq : (r : ℚ) / d < 1 / 2 := by
      rw [div_lt_div_iff₀ hdq (by norm_num)]
      exact_mod_cast (show r * 2 < 1 * d by omega)
    rw [if_neg hhalf]
    push_cast
    constructor <;> linarith

/-- The nearest integer is the quotient towards zero, or one further from zero where the remainder is at least half the
divisor. -/
theorem round_away_tdiv (z : Int) {d : Nat} (hd : 0 < d) :
    roundAway (z / d : ℚ) = if d ≤ (z.tmod d).natAbs * 2 then z.tdiv d + z.sign else z.tdiv d := by
  have hrest : (z.tmod d).natAbs = z.natAbs % d := by rw [Int.natAbs_tmod, Int.natAbs_natCast]
  have hmagnitude : (0 : ℚ) ≤ (z.natAbs : ℚ) / d := by positivity
  have hround : roundAway ((z.natAbs : ℚ) / d) = ((z.natAbs / d + if d ≤ 2 * (z.natAbs % d) then 1 else 0 : Nat) : Int) :=
    (if_neg (not_lt.mpr hmagnitude)).trans (floor_half_quotient z.natAbs hd)
  rw [hrest, mul_comm _ 2]
  rcases lt_or_ge z 0 with hneg | hnonneg
  · have hcast : (z : ℚ) = -(z.natAbs : ℚ) := by exact_mod_cast (show z = -(z.natAbs : Int) by omega)
    have hquotient : z.tdiv d = -((z.natAbs / d : Nat) : Int) := by
      rw [Int.ofNat_tdiv, ← Int.neg_tdiv]
      congr 1
      omega
    rw [hcast, neg_div, round_away_neg, hround, hquotient, Int.sign_eq_neg_one_of_neg hneg]
    split <;> omega
  · have hcast : (z : ℚ) = (z.natAbs : ℚ) := by
      rw [← Int.cast_natCast, Int.natAbs_of_nonneg hnonneg]
    have hquotient : z.tdiv d = ((z.natAbs / d : Nat) : Int) := by
      rw [Int.ofNat_tdiv]
      congr 1
      omega
    rw [hcast, hround, hquotient]
    rcases Nat.eq_zero_or_pos z.natAbs with hzero | hpos
    · rw [hzero, Nat.zero_mod, if_neg (by omega), if_neg (by omega), Nat.add_zero]
    · rw [Int.sign_eq_one_of_pos (by omega)]
      split <;> omega

theorem rounded_quotient_eq {z : Int} (hz : Fits 128 z) {down : Nat} (hpos : 0 < down) (hnear : down ≤ maxPrecision) :
    roundedQuotient z down = .ok (roundAway (z / ((10 ^ down : Nat) : ℚ))) := by
  have hmost : 10 ^ down ≤ 10 ^ maxPrecision := Nat.pow_le_pow_right (by decide) hnear
  have hten : 10 ≤ 10 ^ down := Nat.le_self_pow (by omega) 10
  have hpower : (10 : Int) ^ down = ((10 ^ down : Nat) : Int) := by
    push_cast
    rfl
  rw [roundedQuotient, hpower, round_away_tdiv z (by omega)]
  generalize 10 ^ down = d at hmost hten
  have hbound := word_bound hz
  have hwide : 2 * 10 ^ maxPrecision < 2 ^ 128 := by decide
  have hquotient : (z.tdiv d).natAbs < 2 ^ 127 - 1 := by
    rw [Int.natAbs_tdiv, Int.natAbs_natCast]
    calc z.natAbs / d ≤ z.natAbs / 10 := Nat.div_le_div_left hten (by decide)
      _ < 2 ^ 127 - 1 := by omega
  have hrest : (z.tmod d).natAbs < 10 ^ maxPrecision := by
    rw [Int.natAbs_tmod, Int.natAbs_natCast]
    have := Nat.mod_lt z.natAbs (show 0 < d by omega)
    omega
  have hdouble : (z.tmod d).natAbs * 2 < 2 ^ 128 := by omega
  have hsum : (z.tdiv d + z.sign).natAbs < 2 ^ 127 := by
    have := Int.natAbs_add_le (z.tdiv d) z.sign
    have : z.sign.natAbs ≤ 1 := by
      rw [Int.natAbs_sign]
      split <;> decide
    omega
  rw [Words.unchecked_fits (fits_word (z := (d : Int)) (by omega)), Words.ok_bind,
    Words.unchecked_fits (fits_word (by omega)), Words.ok_bind, Words.unchecked_fits (fits_word (by omega)), Words.ok_bind,
    Words.uncheckedUnsigned, if_pos hdouble, Words.ok_bind, Int.natAbs_natCast, Words.unchecked_fits (fits_word hsum),
    apply_ite Except.ok]

theorem value_up {up : Nat} (h : (s : Int) - l.scale = up) :
    l.value * 10 ^ s = ((l.unscaled * 10 ^ up : Int) : ℚ) := by
  have hten : (10 : ℚ) ≠ 0 := by norm_num
  have hpow : (10 : ℚ) ^ (-l.scale) * 10 ^ s = 10 ^ up := by
    rw [← zpow_natCast, ← zpow_natCast, ← zpow_add₀ hten, ← h]
    congr 1
    omega
  rw [value, mul_assoc, hpow]
  push_cast
  rfl

theorem value_down {down : Nat} (h : l.scale = s + down) :
    l.value * 10 ^ s = l.unscaled / ((10 ^ down : Nat) : ℚ) := by
  have hten : (10 : ℚ) ≠ 0 := by norm_num
  have hpow : (10 : ℚ) ^ (-l.scale) * 10 ^ s = (10 ^ down)⁻¹ := by
    rw [← zpow_natCast, ← zpow_natCast, ← zpow_add₀ hten, ← zpow_neg, h]
    congr 1
    omega
  rw [value, mul_assoc, hpow]
  push_cast
  rfl

theorem value_far_down {down : Nat} (hfits : Fits 128 l.unscaled) (h : l.scale = s + down) (hdown : maxPrecision < down) :
    roundAway (l.value * 10 ^ s) = 0 := by
  have hword := word_bound hfits
  have hpow : 2 * 2 ^ 127 < 10 ^ down := by
    calc 2 * 2 ^ 127 < 10 ^ (maxPrecision + 1) := by decide
      _ ≤ 10 ^ down := Nat.pow_le_pow_right (by decide) hdown
  apply round_away_small
  rw [value_down h, abs_div, Nat.abs_cast, div_lt_div_iff₀ (by positivity) (by norm_num), ← Int.cast_abs,
    Int.abs_eq_natAbs]
  exact_mod_cast (show l.unscaled.natAbs * 2 < 1 * 10 ^ down by omega)

theorem rescale_down {down : Nat} (hfits : Fits 128 l.unscaled) (h : l.scale = s + down) (hpos : 0 < down)
    (hword : l.scale < 2 ^ 31) : l.rescale s = .ok (roundAway (l.value * 10 ^ s)) := by
  have hdiff : l.scale - s = down := by omega
  have hdistance : Fits 32 (down : Int) := fits_distance (Int.natCast_nonneg down) (by omega)
  rw [rescale, if_neg (by omega), if_neg (by omega), hdiff, Words.unchecked_fits hdistance, Words.ok_bind,
    Int.toNat_natCast]
  by_cases hfar : maxPrecision < down
  · rw [if_pos hfar, value_far_down hfits h hfar]
  · rw [if_neg hfar, rounded_quotient_eq hfits hpos (not_lt.mp hfar), value_down h]

theorem rescale_far (h : 2 ^ 31 ≤ s - l.scale) : l.rescale s = .error (.wrapped 32) := by
  norm_num at h
  have hlarge : ¬ Fits 32 (s - l.scale) := by
    rintro ⟨-, hfits⟩
    norm_num at hfits
    omega
  rw [rescale, if_neg (by omega), if_pos (by omega), Words.unchecked_wraps hlarge]
  rfl

theorem rescale_up_inv (hup : l.scale < s) (h : l.rescale s = .ok u) : u = l.unscaled * 10 ^ (s - l.scale).toNat := by
  have hdiff : (s : Int) - l.scale = ((s - l.scale).toNat : Nat) := by omega
  rcases lt_or_ge ((s : Int) - l.scale) (2 ^ 31) with hnear | hfar
  · have hword : Fits 32 ((s - l.scale).toNat : Int) := fits_distance (by omega) (by omega)
    rw [rescale_up hdiff (by omega) hword] at h
    split at h
    · exact Words.checked_ok_inv h
    · contradiction
  · rw [rescale_far hfar] at h
    contradiction

theorem rescale_value (hfits : Fits 128 l.unscaled) (hword : l.scale < 2 ^ 31) (h : l.rescale s = .ok u) :
    u = roundAway (l.value * 10 ^ s) := by
  rcases lt_trichotomy l.scale s with hup | hsame | hdown
  · rw [value_up (by omega : (s : Int) - l.scale = ((s - l.scale).toNat : Nat)), round_away_int]
    exact rescale_up_inv hup h
  · have hdiff : (s : Int) - l.scale = ((0 : Nat) : Int) := by omega
    rw [rescale, if_pos hsame] at h
    rw [value_up hdiff, round_away_int, pow_zero, mul_one]
    exact (Except.ok.inj h).symm
  · have hdiff : l.scale = s + ((l.scale - s).toNat : Nat) := by omega
    rw [rescale_down hfits hdiff (by omega) hword] at h
    exact (Except.ok.inj h).symm

/-- A literal has a value at a scale if its digits fit a decimal, unless it is a zero from too far below. -/
theorem rescale_exists (hfits : Fits 128 l.unscaled) (hword : l.scale < 2 ^ 31)
    (hzero : l.unscaled = 0 → s - l.scale ≤ maxPrecision)
    (hlt : (roundAway (l.value * 10 ^ s)).natAbs < 10 ^ maxPrecision) :
    l.rescale s = .ok (roundAway (l.value * 10 ^ s)) := by
  by_cases hup : l.scale ≤ s
  · have hdiff : (s : Int) - l.scale = ((s - l.scale).toNat : Nat) := by omega
    rw [value_up hdiff, round_away_int] at *
    have hnear : (s - l.scale).toNat ≤ maxPrecision := by
      by_contra hfar
      have hunscaled : 0 < l.unscaled.natAbs := by
        by_contra hnone
        have := hzero (by omega)
        omega
      have hlarge : 10 ^ maxPrecision ≤ (l.unscaled * 10 ^ (s - l.scale).toNat).natAbs := by
        rw [Int.natAbs_mul, Int.natAbs_pow]
        calc 10 ^ maxPrecision ≤ 10 ^ (s - l.scale).toNat := Nat.pow_le_pow_right (by decide) (by omega)
          _ ≤ l.unscaled.natAbs * 10 ^ (s - l.scale).toNat := Nat.le_mul_of_pos_left _ hunscaled
      exact absurd hlt (not_lt.mpr hlarge)
    exact rescale_near hdiff hnear (fits_wide hlt)
  · have hdiff : l.scale = s + ((l.scale - s).toNat : Nat) := by omega
    exact rescale_down hfits hdiff (by omega) hword

/-- The distance between the scales is the only word that a literal leaves unchecked. -/
theorem rescale_wraps_iff (hfits : Fits 128 l.unscaled) (hword : l.scale < 2 ^ 31) {bits : Nat} :
    l.rescale s = .error (.wrapped bits) ↔ bits = 32 ∧ 2 ^ 31 ≤ s - l.scale := by
  have hok {u : Int} (h : l.rescale s = .ok u) (hnear : ¬ 2 ^ 31 ≤ (s : Int) - l.scale) :
      l.rescale s = .error (.wrapped bits) ↔ bits = 32 ∧ 2 ^ 31 ≤ s - l.scale := by
    rw [h]
    refine iff_of_false ?_ fun hfar => hnear hfar.2
    rintro ⟨⟩
  rcases lt_trichotomy l.scale s with hup | hsame | hdown
  · have hdiff : (s : Int) - l.scale = ((s - l.scale).toNat : Nat) := by omega
    rcases lt_or_ge ((s : Int) - l.scale) (2 ^ 31) with hnear | hfar
    · have hdistance : Fits 32 ((s - l.scale).toNat : Int) := fits_distance (by omega) (by omega)
      rw [rescale_up hdiff (by omega) hdistance, Words.checked]
      refine iff_of_false ?_ fun hfar => not_lt.mpr hfar.2 hnear
      split_ifs <;> rintro ⟨⟩
    · rw [rescale_far hfar]
      simp only [Except.error.injEq, WordFault.wrapped.injEq, hfar, and_true, eq_comm]
  · exact hok (if_pos hsame) (by norm_num; omega)
  · have hdiff : l.scale = s + ((l.scale - s).toNat : Nat) := by omega
    exact hok (rescale_down hfits hdiff (by omega) hword) (by norm_num; omega)

end Literal

end TypedRecords
