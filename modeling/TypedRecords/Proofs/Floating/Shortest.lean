import TypedRecords.Floating.Shortest
import TypedRecords.Proofs.Floating.Rounding
/-!
# Shortest forms read back

Reading depends on the number alone and not on how it is split into significand and exponent. The exact form
of a finite value reads back, so its shortest form does.
-/

namespace TypedRecords.Floating

open Text (digitsOf)

variable {f : Format} {x : Floating f} {tie : Tie} {d : DecimalForm}

def decimalMagnitude (f : Format) (s : Nat) (e : Int) : Nat :=
  let top := e + (digitsOf s).length
  if s = 0 ∨ top < -(f.unitBits : Int) then 0
  else if (f.unitBits : Int) + 1 < top then f.infinityBits
  else nearestMagnitude f (s * 10 ^ e.toNat) (10 ^ (-e).toNat)

theorem of_decimal_pack (negative : Bool) (s : Nat) (e : Int) :
    (ofDecimal negative s e : Floating f) = pack negative (decimalMagnitude f s e) := by
  unfold ofDecimal decimalMagnitude
  dsimp only
  split
  · rfl
  split
  · rfl
  cases e with
  | ofNat e => simp [ofRatio]
  | negSucc e =>
    have hpos : (Int.negSucc e).toNat = 0 := rfl
    simp [ofRatio, hpos]

theorem decimal_magnitude_zero (f : Format) (e : Int) : decimalMagnitude f 0 e = 0 := by
  simp [decimalMagnitude]

theorem decimal_magnitude_shift (s k : Nat) (e : Int) :
    decimalMagnitude f (s * 10 ^ k) e = decimalMagnitude f s (e + k) := by
  by_cases hs : s = 0
  · rw [hs, Nat.zero_mul, decimal_magnitude_zero, decimal_magnitude_zero]
  have hlength := Text.digits_of_length_mul_pow (Nat.pos_of_ne_zero hs) k
  have htop : e + ((digitsOf (s * 10 ^ k)).length : Int) = e + k + (digitsOf s).length := by omega
  have hpow (n : Nat) : 0 < 10 ^ n := Nat.pow_pos (by decide)
  have hzero : s * 10 ^ k = 0 ↔ s = 0 := by simp
  have hexp : k + e.toNat + (-(e + k)).toNat = (e + k).toNat + (-e).toNat := by omega
  have hratio : s * 10 ^ k * 10 ^ e.toNat * 10 ^ (-(e + k)).toNat =
      s * 10 ^ (e + k).toNat * 10 ^ (-e).toNat := by
    simp only [Nat.mul_assoc, ← Nat.pow_add]
    rw [← hexp, Nat.add_assoc]
  unfold decimalMagnitude
  dsimp only
  simp only [htop, hzero, nearest_ratio (hpow _) (hpow _) hratio]

theorem decimal_magnitude_le (f : Format) (s : Nat) (e : Int) : decimalMagnitude f s e ≤ f.infinityBits := by
  unfold decimalMagnitude
  dsimp only
  split
  · exact Nat.zero_le _
  split
  · exact Nat.le_refl _
  · exact Nat.min_le_right _ _

/-- The largest finite value is far below the first exponent that is not expanded. -/
theorem units_lt (hf : f.Proper) (hx : x.isFinite = true) : x.units < 2 ^ (2 * f.unitBits + 1) := by
  have hprecision := hf.precision_ge
  have hlead : 0 < 2 ^ (f.precision - 1) := Nat.two_pow_pos _
  have hhalf : 2 ^ f.exponentBits = 2 * 2 ^ (f.exponentBits - 1) := by
    have := hf.exponent_pos
    rw [← Nat.pow_succ', Nat.succ_eq_add_one, Nat.sub_add_cancel (by omega)]
  have hpos : 0 < 2 ^ (f.exponentBits - 1) := Nat.two_pow_pos _
  have hfield : x.magnitude / 2 ^ (f.precision - 1) < 2 ^ f.exponentBits - 1 :=
    (Nat.div_lt_iff_lt_mul hlead).mpr (of_decide_eq_true hx)
  have hmod := Nat.mod_lt x.magnitude hlead
  unfold units
  dsimp only
  split
  · exact Nat.lt_of_lt_of_le hmod (Nat.pow_le_pow_right (by decide) (by rw [Format.unitBits]; omega))
  · next exponent hexp =>
    have hsum : x.magnitude % 2 ^ (f.precision - 1) + 2 ^ (f.precision - 1) < 2 ^ f.precision := by
      have hsucc : f.precision = f.precision - 1 + 1 := by omega
      rw [hsucc, Nat.pow_succ, ← hsucc]
      omega
    calc (x.magnitude % 2 ^ (f.precision - 1) + 2 ^ (f.precision - 1)) * 2 ^ exponent
        < 2 ^ f.precision * 2 ^ exponent := Nat.mul_lt_mul_of_pos_right hsum (Nat.two_pow_pos _)
      _ = 2 ^ (f.precision + exponent) := (Nat.pow_add ..).symm
      _ ≤ 2 ^ (2 * f.unitBits + 1) := Nat.pow_le_pow_right (by decide) (by rw [Format.unitBits]; omega)

theorem exact_form_magnitude (hf : f.Proper) (hx : x.isFinite = true) :
    decimalMagnitude f x.exactForm.significand x.exactForm.exponent = x.magnitude := by
  have hratio : x.units * 5 ^ f.unitBits * 2 ^ f.unitBits = x.units * 10 ^ f.unitBits := by
    rw [Nat.mul_assoc, ← Nat.mul_pow]
  have hnearest : nearestMagnitude f (x.units * 5 ^ f.unitBits) (10 ^ f.unitBits) = x.magnitude := by
    rw [nearest_ratio (Nat.pow_pos (by decide)) (Nat.two_pow_pos _) hratio, nearest_units hf hx]
  have hlength : (digitsOf (x.units * 5 ^ f.unitBits)).length ≤ 2 * f.unitBits + 1 := by
    rw [Text.digits_of_length_le (Nat.succ_pos _), show 10 = 2 * 5 from rfl, Nat.mul_pow]
    have hfive : 5 ^ f.unitBits ≤ 5 ^ (2 * f.unitBits + 1) := Nat.pow_le_pow_right (by decide) (by omega)
    exact Nat.mul_lt_mul_of_lt_of_le (units_lt hf hx) hfive (Nat.pow_pos (by decide))
  have hneg : (-(f.unitBits : Int)).toNat = 0 := by omega
  have hpos : (- -(f.unitBits : Int)).toNat = f.unitBits := by omega
  unfold decimalMagnitude exactForm
  dsimp only
  rw [hneg, hpos, Nat.pow_zero, Nat.mul_one, hnearest]
  split
  · next hcase =>
    have hzero : x.units * 5 ^ f.unitBits = 0 := hcase.resolve_right (by omega)
    rw [hzero, nearest_zero] at hnearest
    exact hnearest
  · rw [if_neg (by omega)]

theorem reads_back_iff (hf : f.Proper) :
    x.readsBack d = true ↔ decimalMagnitude f d.significand d.exponent = x.magnitude := by
  have hlt := Nat.lt_of_le_of_lt (decimal_magnitude_le f d.significand d.exponent) hf.infinity_lt
  rw [readsBack, of_decimal_pack, magnitude_pack false hf hlt, beq_iff_eq]

theorem on_grid_reads_back {exact : DecimalForm} {dropped : Nat} (h : onGrid? tie x exact dropped = some d) :
    x.readsBack d = true := by
  unfold onGrid? at h
  dsimp only at h
  split at h
  · contradiction
  · next hbelow _ =>
    obtain rfl := Option.some.inj h
    exact hbelow
  · next habove =>
    obtain rfl := Option.some.inj h
    exact (Bool.and_eq_true_iff.mp habove).2
  · next hbelow habove =>
    have habove := (Bool.and_eq_true_iff.mp habove).2
    repeat' split at h
    all_goals
      obtain rfl := Option.some.inj h
      assumption

theorem shortest_reads_back (hf : f.Proper) (tie : Tie) (hx : x.isFinite = true) :
    x.readsBack (x.shortest tie) = true := by
  unfold shortest
  dsimp only
  cases hfind : (List.range (digitsOf x.exactForm.significand).length).findSome? fun n =>
      onGrid? tie x x.exactForm ((digitsOf x.exactForm.significand).length - 1 - n) with
  | none => exact (reads_back_iff hf).mpr (exact_form_magnitude hf hx)
  | some d =>
    obtain ⟨n, -, hn⟩ := List.exists_of_findSome?_eq_some hfind
    exact on_grid_reads_back hn

theorem of_decimal_shortest (hf : f.Proper) (tie : Tie) (hx : x.isFinite = true) :
    ofDecimal x.isNegative (x.shortest tie).significand (x.shortest tie).exponent = x := by
  rw [of_decimal_pack, (reads_back_iff hf).mp (shortest_reads_back hf tie hx), pack_self hf]

end TypedRecords.Floating
