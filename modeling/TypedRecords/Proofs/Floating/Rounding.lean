import Mathlib.Tactic.Ring
import TypedRecords.Floating.Rounding
import TypedRecords.Proofs.Text.Digits
/-!
# Rounding laws

The nearest value of a format depends on the ratio alone, and a finite value is the nearest one to itself.
-/

namespace TypedRecords

structure Format.Proper (f : Format) : Prop where
  precision_ge : 2 ≤ f.precision
  exponent_pos : 0 < f.exponentBits

theorem Format.single_proper : Format.single.Proper := ⟨by decide, by decide⟩

theorem Format.double_proper : Format.double.Proper := ⟨by decide, by decide⟩

theorem Format.Proper.width_eq {f : Format} (hf : f.Proper) :
    f.width - 1 = f.exponentBits + (f.precision - 1) := by
  have := hf.precision_ge
  rw [width]
  omega

theorem Format.Proper.pow_width {f : Format} (hf : f.Proper) : 2 ^ f.width = 2 * 2 ^ (f.width - 1) := by
  have hsucc : f.width - 1 + 1 = f.width := by
    have := hf.width_eq
    have := hf.exponent_pos
    omega
  rw [← Nat.pow_succ', Nat.succ_eq_add_one, hsucc]

theorem Format.Proper.infinity_lt {f : Format} (hf : f.Proper) : f.infinityBits < 2 ^ (f.width - 1) := by
  have hpos : 0 < 2 ^ f.exponentBits := Nat.two_pow_pos _
  rw [hf.width_eq, Nat.pow_add, infinityBits]
  exact Nat.mul_lt_mul_of_pos_right (by omega) (Nat.two_pow_pos _)

section Quotients

variable {a b c k n q : Nat}

theorem round_quotient_scale (hc : 0 < c) : roundQuotient (a * c) (b * c) = roundQuotient a b := by
  have hdiv : a * c / (b * c) = a / b := Nat.mul_div_mul_right a b hc
  have hmod : a * c % (b * c) = a % b * c := Nat.mul_mod_mul_right c a b
  have hlow : 2 * (a % b * c) < b * c ↔ 2 * (a % b) < b := by
    rw [← Nat.mul_assoc, Nat.mul_lt_mul_right hc]
  have hhigh : b * c < 2 * (a % b * c) ↔ b < 2 * (a % b) := by
    rw [← Nat.mul_assoc, Nat.mul_lt_mul_right hc]
  simp only [roundQuotient, hdiv, hmod, hlow, hhigh]

theorem round_quotient_exact (hb : 0 < b) : roundQuotient (q * b) b = q := by
  simp [roundQuotient, Nat.mul_div_cancel q hb, hb]

theorem bit_length_eq (hlow : 2 ^ k ≤ n) (hhigh : n < 2 ^ (k + 1)) : bitLength n = k + 1 := by
  have hn : n ≠ 0 := by
    have := Nat.two_pow_pos k
    omega
  rw [bitLength, if_neg hn, (Nat.log2_eq_iff hn).mpr ⟨hlow, hhigh⟩]

theorem bit_length_le (h : n < 2 ^ k) : bitLength n ≤ k := by
  unfold bitLength
  split
  · exact Nat.zero_le k
  · next hn => exact (Nat.log2_lt hn).mpr h

/-- The leading bit stands where the digits behind it and the shift put it. -/
theorem bit_length_lead {stored exponent : Nat} (h : stored < 2 ^ k) :
    bitLength ((stored + 2 ^ k) * 2 ^ exponent) = k + exponent + 1 := by
  have hlow : 2 ^ (k + exponent) ≤ (stored + 2 ^ k) * 2 ^ exponent := by
    rw [Nat.pow_add]
    exact Nat.mul_le_mul_right _ (Nat.le_add_left _ _)
  have hhigh : (stored + 2 ^ k) * 2 ^ exponent < 2 ^ (k + exponent + 1) := by
    rw [Nat.add_right_comm, Nat.pow_add, Nat.pow_succ]
    exact Nat.mul_lt_mul_of_pos_right (by omega) (Nat.two_pow_pos _)
  exact bit_length_eq hlow hhigh

end Quotients

namespace Floating

variable {f : Format} {x : Floating f} {a b c d m : Nat}

theorem magnitude_pack (negative : Bool) (hf : f.Proper) (hm : m < 2 ^ (f.width - 1)) :
    (pack negative m : Floating f).magnitude = m := by
  have hdvd : 2 ^ (f.width - 1) ∣ 2 ^ f.width := ⟨2, by rw [hf.pow_width, Nat.mul_comm]⟩
  rw [magnitude, pack, BitVec.toNat_ofNat, Nat.mod_mod_of_dvd _ hdvd]
  cases negative
  · exact Nat.mod_eq_of_lt hm
  · rw [if_pos rfl, Nat.add_mod_right, Nat.mod_eq_of_lt hm]

theorem pack_self (hf : f.Proper) (x : Floating f) : pack x.isNegative x.magnitude = x := by
  obtain ⟨bits⟩ := x
  have hlt : bits.toNat < 2 * 2 ^ (f.width - 1) := hf.pow_width ▸ bits.isLt
  refine congrArg Floating.mk (BitVec.eq_of_toNat_eq ?_)
  rw [BitVec.toNat_ofNat, hf.pow_width]
  simp only [magnitude, isNegative, decide_eq_true_eq]
  by_cases hneg : 2 ^ (f.width - 1) ≤ bits.toNat
  · have hmod : bits.toNat % 2 ^ (f.width - 1) = bits.toNat - 2 ^ (f.width - 1) := by
      rw [Nat.mod_eq_sub_mod hneg, Nat.mod_eq_of_lt (by omega)]
    rw [hmod, if_pos hneg, Nat.sub_add_cancel hneg, Nat.mod_eq_of_lt hlt]
  · have hmod : bits.toNat % 2 ^ (f.width - 1) = bits.toNat := Nat.mod_eq_of_lt (by omega)
    rw [hmod, if_neg hneg, Nat.add_zero, Nat.mod_eq_of_lt hlt]

theorem nearest_scale (hc : 0 < c) : nearestMagnitude f (a * c) (d * c) = nearestMagnitude f a d := by
  have hnum : a * c * 2 ^ f.unitBits = a * 2 ^ f.unitBits * c := by ring
  have hden (n : Nat) : d * c * n = d * n * c := by ring
  simp only [nearestMagnitude, hnum, hden, Nat.mul_div_mul_right _ _ hc, round_quotient_scale hc]

theorem nearest_ratio (hb : 0 < b) (hd : 0 < d) (h : a * d = c * b) :
    nearestMagnitude f a b = nearestMagnitude f c d := by
  rw [← nearest_scale hd, h, Nat.mul_comm b d, nearest_scale hb]

theorem nearest_zero (d : Nat) : nearestMagnitude f 0 d = 0 := by
  simp [nearestMagnitude, bitLength, roundQuotient]

/-- A multiple of the smallest unit with at most `precision` leading bits is kept by rounding. -/
theorem nearest_exact {stored exponent : Nat} (hm : exponent * 2 ^ (f.precision - 1) + stored ≤ f.infinityBits)
    (hlength : bitLength (stored * 2 ^ exponent) - f.precision = exponent) :
    nearestMagnitude f (stored * 2 ^ exponent) (2 ^ f.unitBits) =
      exponent * 2 ^ (f.precision - 1) + stored := by
  have hunit : 0 < 2 ^ f.unitBits := Nat.two_pow_pos _
  have hscaled : stored * 2 ^ exponent * 2 ^ f.unitBits =
      stored * (2 ^ f.unitBits * 2 ^ exponent) := by ring
  have hround : roundQuotient (stored * 2 ^ exponent * 2 ^ f.unitBits) (2 ^ f.unitBits * 2 ^ exponent) =
      stored := by
    rw [hscaled, round_quotient_exact (Nat.mul_pos hunit (Nat.two_pow_pos _))]
  simp only [nearestMagnitude, Nat.mul_div_cancel _ hunit, hlength, hround]
  exact Nat.min_eq_left hm

theorem nearest_units (hf : f.Proper) (hx : x.isFinite = true) :
    nearestMagnitude f x.units (2 ^ f.unitBits) = x.magnitude := by
  have hfinite : x.magnitude ≤ f.infinityBits := Nat.le_of_lt (of_decide_eq_true hx)
  have hlead : 0 < 2 ^ (f.precision - 1) := Nat.two_pow_pos _
  have hprecision : 2 ^ f.precision = 2 * 2 ^ (f.precision - 1) := by
    have := hf.precision_ge
    rw [← Nat.pow_succ', Nat.succ_eq_add_one, Nat.sub_add_cancel (by omega)]
  have hsplit := Nat.div_add_mod x.magnitude (2 ^ (f.precision - 1))
  have hmod := Nat.mod_lt x.magnitude hlead
  unfold units
  dsimp only
  generalize x.magnitude % 2 ^ (f.precision - 1) = stored at hsplit hmod ⊢
  split
  · next hzero =>
    rw [hzero, Nat.mul_zero, Nat.zero_add] at hsplit
    have hlength : bitLength (stored * 2 ^ 0) - f.precision = 0 := by
      have := bit_length_le (n := stored) (k := f.precision) (by omega)
      rw [Nat.pow_zero, Nat.mul_one]
      omega
    have hexact := nearest_exact (f := f) (by omega) hlength
    rw [Nat.pow_zero, Nat.mul_one, Nat.zero_mul, Nat.zero_add] at hexact
    rw [hexact, hsplit]
  · next exponent hsucc =>
    rw [hsucc, Nat.mul_succ, Nat.mul_comm] at hsplit
    have hlength : bitLength ((stored + 2 ^ (f.precision - 1)) * 2 ^ exponent) - f.precision = exponent := by
      have := hf.precision_ge
      rw [bit_length_lead hmod]
      omega
    rw [nearest_exact (by omega) hlength]
    omega

end Floating

end TypedRecords
