import Mathlib.Data.List.TakeWhile
import Mathlib.Tactic.NormNum
import TypedRecords.Decimal.Basic
import TypedRecords.Proofs.Text.Digits
/-!
# Literals as decimals

A literal is brought to a larger scale by zeros at its end, as far as a word holds them. So one whose digits fit a decimal
type keeps its value under every decimal type with at least as many digits on both sides of the point.
-/

namespace TypedRecords

namespace Text

variable {cs : List Char} {z : Int}

theorem nat_of_digits_inv {n : Nat} (h : natOfDigits? cs = some n) :
    cs ≠ [] ∧ cs.all isDigit = true ∧ n = digitsValue cs := by
  unfold natOfDigits? at h
  split at h
  · next hcs =>
    simp only [Bool.and_eq_true, Bool.not_eq_true', List.isEmpty_eq_false_iff] at hcs
    exact ⟨hcs.1, hcs.2, (Option.some.inj h).symm⟩
  · contradiction

theorem signed_of_digits_inv (h : signedOfDigits? cs = some z) : ∃ ds, ds ≠ [] ∧ ds.all isDigit = true ∧
    (cs = '-' :: ds ∧ z = -(digitsValue ds : Int) ∨ (cs = '+' :: ds ∨ cs = ds) ∧ z = digitsValue ds) := by
  have hrun {ds : List Char} {f : Nat → Int} (h : (natOfDigits? ds).map f = some z) :
      ds ≠ [] ∧ ds.all isDigit = true ∧ z = f (digitsValue ds) := by
    obtain ⟨n, hn, rfl⟩ := Option.map_eq_some_iff.mp h
    obtain ⟨hne, hall, rfl⟩ := nat_of_digits_inv hn
    exact ⟨hne, hall, rfl⟩
  have hcoe (ds : List Char) (f : Int → Int) :
      ((natOfDigits? ds).bind fun n => some (n : Int)).map f = (natOfDigits? ds).map fun n : Nat => f n := by
    cases natOfDigits? ds <;> rfl
  unfold signedOfDigits? at h
  split at h
  · next ds =>
    obtain ⟨hne, hall, hz⟩ := hrun ((hcoe ds _).symm.trans h)
    exact ⟨ds, hne, hall, Or.inl ⟨rfl, hz⟩⟩
  · next ds =>
    obtain ⟨hne, hall, hz⟩ := hrun ((hcoe ds _).symm.trans h)
    exact ⟨ds, hne, hall, Or.inr ⟨Or.inl rfl, hz⟩⟩
  · obtain ⟨hne, hall, hz⟩ := hrun ((hcoe cs _).symm.trans h)
    exact ⟨cs, hne, hall, Or.inr ⟨Or.inr rfl, hz⟩⟩

end Text

open Text

theorem fitting_inv {bits : Nat} {z w : Int} (h : fitting? bits z = some w) : Fits bits z ∧ w = z := by
  unfold fitting? at h
  split at h
  · next hz => exact ⟨hz, (Option.some.inj h).symm⟩
  · contradiction

theorem fitting_of_fits {bits : Nat} {z : Int} (h : Fits bits z) : fitting? bits z = some z := if_pos h

theorem fits_word {z : Int} (h : z.natAbs < 2 ^ 127) : Fits 128 z := by
  have hwide : (2 ^ (128 - 1) : Int) = ((2 ^ 127 : Nat) : Int) := by norm_num
  rw [Fits, hwide]
  omega

theorem fits_distance {z : Int} (hz : 0 ≤ z) (h : z < 2 ^ 31) : Fits 32 z := by
  norm_num at h
  constructor <;> norm_num <;> omega

theorem word_bound {z : Int} (h : Fits 128 z) : z.natAbs ≤ 2 ^ 127 := by
  have hwide : (2 ^ (128 - 1) : Int) = ((2 ^ 127 : Nat) : Int) := by norm_num
  rw [Fits, hwide] at h
  omega

theorem fits_wide {z : Int} (h : z.natAbs < 10 ^ maxPrecision) : Fits 128 z := by
  have hpow : (10 ^ maxPrecision : Nat) < 2 ^ 127 := by decide
  exact fits_word (h.trans hpow)

/-- The powers of ten in a word are those that a decimal can have as its range. -/
theorem power_fits_iff (n : Nat) : Fits 128 (10 ^ n) ↔ n ≤ maxPrecision := by
  have hpower : ((10 : Int) ^ n).natAbs = 10 ^ n := by rw [Int.natAbs_pow]; rfl
  constructor
  · intro hfits
    by_contra hfar
    have hmost : 10 ^ (maxPrecision + 1) ≤ 10 ^ n := Nat.pow_le_pow_right (by decide) (by omega)
    have hwide : 2 ^ 127 < 10 ^ (maxPrecision + 1) := by decide
    have := word_bound hfits
    omega
  · intro hnear
    have hmost : 10 ^ n ≤ 10 ^ maxPrecision := Nat.pow_le_pow_right (by decide) hnear
    have hwide : 10 ^ maxPrecision < 2 ^ 127 := by decide
    apply fits_word
    omega

namespace Words

variable {α β : Type} {bits : Nat} {z : Int}

theorem ok_bind (a : α) (f : α → Except WordFault β) : (.ok a >>= f) = f a := rfl

theorem given_ok_iff {x : Option α} {a : α} : given x = .ok a ↔ x = some a := by
  cases x <;> simp [given]

theorem checked_fits (h : Fits bits z) : checked bits z = .ok z := if_pos h

theorem unchecked_fits (h : Fits bits z) : unchecked bits z = .ok z := if_pos h

theorem unchecked_wraps (h : ¬ Fits bits z) : unchecked bits z = .error (.wrapped bits) := if_neg h

theorem checked_ok_inv {w : Int} (h : checked bits z = .ok w) : w = z := by
  unfold checked at h
  split at h
  · exact (Except.ok.inj h).symm
  · contradiction

end Words

namespace Literal

variable {ds : List Char} {z : Int} {l : Literal} {p s p' s' : Nat}

theorem digit_no_mark {c : Char} (h : isDigit c = true) : isExponentMark c = false ∧ c ≠ '.' := by
  constructor
  · rw [Bool.eq_false_iff]
    intro he
    simp only [isExponentMark, Bool.or_eq_true, beq_iff_eq] at he
    rcases he with rfl | rfl
    all_goals contradiction
  · rintro rfl
    contradiction

theorem split_exponent_none {cs : List Char} (h : cs.all (fun c => !isExponentMark c) = true) :
    splitExponent? cs = some (cs, 0) := by
  have hdrop : cs.dropWhile (fun c => !isExponentMark c) = [] :=
    List.dropWhile_eq_nil_iff.mpr (List.all_eq_true.mp h)
  rw [splitExponent?, hdrop]

theorem split_point_none (h : ds.all isDigit = true) : splitPoint ds = (ds, []) := by
  have hpoint : ∀ c ∈ ds, (c != '.') = true := fun c hc => by
    simpa using (digit_no_mark (List.all_eq_true.mp h c hc)).2
  have htake : ds.takeWhile (· != '.') = ds := List.takeWhile_eq_self_iff.mpr hpoint
  have hdrop : ds.dropWhile (· != '.') = [] := List.dropWhile_eq_nil_iff.mpr hpoint
  rw [splitPoint, htake, hdrop, List.drop_nil]

theorem split_sign_digit {cs : List Char} (h : cs.head?.any isDigit = true) : splitSign cs = (false, cs) := by
  unfold splitSign
  split
  · contradiction
  · contradiction
  · rfl

theorem parse_parts {text : String} {mantissa digits whole fraction : List Char} {e : Int}
    {negative : Bool} {n : Nat} (hexp : splitExponent? text.toList = some (mantissa, e))
    (hsign : splitSign mantissa = (negative, digits)) (hpoint : splitPoint digits = (whole, fraction))
    (hn : natOfDigits? (whole ++ fraction) = some n) (hz : Fits 128 (n : Int))
    (hplaces : Fits 32 (fraction.length : Int)) (hs : Fits 32 (fraction.length - e)) :
    parse? text = some ⟨if negative then -(n : Int) else n, fraction.length - e⟩ := by
  simp only [parse?, hexp, Option.bind_eq_bind, Option.bind_some, hsign, hpoint]
  simp only [Option.bind_eq_some_iff]
  exact ⟨n, hn, _, fitting_of_fits hz, _, fitting_of_fits hplaces, _, fitting_of_fits hs, rfl⟩

theorem parse_signed {text : String} (h : signedOfDigits? text.toList = some z)
    (hz : z.natAbs < 10 ^ maxPrecision) : parse? text = some ⟨z, 0⟩ := by
  obtain ⟨ds, hne, hall, hcase⟩ := signed_of_digits_inv h
  have hmark : ds.all (fun c => !isExponentMark c) = true := List.all_eq_true.mpr fun c hc => by
    simp [(digit_no_mark (List.all_eq_true.mp hall c hc)).1]
  have hsplit : splitSign ds = (false, ds) := by
    refine split_sign_digit ?_
    cases ds with
    | nil => contradiction
    | cons c ds => exact (Bool.and_eq_true_iff.mp hall).1
  obtain ⟨negative, hexp, hsign, hvalue⟩ : ∃ negative, splitExponent? text.toList = some (text.toList, 0) ∧
      splitSign text.toList = (negative, ds) ∧
        z = if negative then -(digitsValue ds : Int) else digitsValue ds := by
    rcases hcase with ⟨htext, hvalue⟩ | ⟨htext | htext, hvalue⟩
    · refine ⟨true, split_exponent_none ?_, ?_, hvalue⟩ <;> rw [htext]
      · simpa [isExponentMark] using hmark
      · rfl
    · refine ⟨false, split_exponent_none ?_, ?_, hvalue⟩ <;> rw [htext]
      · simpa [isExponentMark] using hmark
      · rfl
    · refine ⟨false, split_exponent_none ?_, ?_, hvalue⟩ <;> rw [htext]
      · exact hmark
      · exact hsplit
  have hfits : Fits 128 (digitsValue ds : Int) := fits_wide (by
    cases negative <;> simp at hvalue <;> omega)
  have hplaces : Fits 32 (([] : List Char).length : Int) := show Fits 32 0 by decide
  have hn : natOfDigits? (ds ++ []) = some (digitsValue ds) := by
    rw [List.append_nil, nat_of_digits_some hne hall]
  rw [parse_parts hexp hsign (split_point_none hall) hn hfits hplaces (by rwa [Int.sub_zero]), ← hvalue]
  rfl

theorem long_inv {text : String} (h : long? text = some z) :
    signedOfDigits? text.toList = some z ∧ Fits 64 z := by
  obtain ⟨w, hw, hfit⟩ := Option.bind_eq_some_iff.mp h
  obtain ⟨hfits, rfl⟩ := fitting_inv hfit
  exact ⟨hw, hfits⟩

theorem long_lt {text : String} (h : long? text = some z) : z.natAbs < 10 ^ 20 := by
  have hfits := (long_inv h).2
  have hpow : (2 ^ (64 - 1) : Int) < ((10 ^ 20 : Nat) : Int) := by norm_num
  rw [Fits] at hfits
  omega

theorem decimal_type_inv (h : l.decimalType? = some (p, s)) :
    0 < p ∧ l.scale = s ∧ l.unscaled.natAbs < 10 ^ p := by
  unfold decimalType? at h
  split at h
  · next hscale =>
    dsimp only at h
    split at h
    · obtain ⟨rfl, rfl⟩ := Prod.mk.inj (Option.some.inj h)
      have hpos := List.length_pos_iff.mpr (digits_of_ne_nil l.unscaled.natAbs)
      refine ⟨by omega, by omega, (lt_pow_digits_of _).trans_le ?_⟩
      exact Nat.pow_le_pow_right (by decide) (le_max_left _ _)
    · contradiction
  · contradiction

/-- The guard of a power of ten refuses what its word would refuse. -/
theorem power_of_ten_checked (n : Nat) : powerOfTen n = Words.checked 128 (10 ^ n) := by
  unfold powerOfTen
  split
  · rfl
  · next hfar => exact (if_neg ((power_fits_iff n).not.mpr hfar)).symm

theorem rescale_up {up : Nat} (h : (s : Int) - l.scale = up) (hpos : 0 < up) (hword : Fits 32 up) :
    l.rescale s = if up ≤ maxPrecision then Words.checked 128 (l.unscaled * 10 ^ up) else .error .refused := by
  rw [rescale, if_neg (by omega), if_pos (by omega), h, Words.unchecked_fits hword, Words.ok_bind, Int.toNat_natCast,
    power_of_ten_checked, Words.checked]
  simp only [power_fits_iff]
  split
  · exact Words.ok_bind _ _
  · rfl

theorem rescale_near {up : Nat} (h : (s : Int) - l.scale = up) (hnear : up ≤ maxPrecision)
    (hfits : Fits 128 (l.unscaled * 10 ^ up)) : l.rescale s = .ok (l.unscaled * 10 ^ up) := by
  rcases Nat.eq_zero_or_pos up with rfl | hpos
  · rw [rescale, if_pos (by omega), pow_zero, mul_one]
  · have hword : Fits 32 up := by
      apply fits_distance (Int.natCast_nonneg up)
      rw [maxPrecision] at hnear
      norm_num
      omega
    rw [rescale_up h hpos hword, if_pos hnear, Words.checked_fits hfits]

theorem rescale_widen (hscale : l.scale = s) (hl : l.unscaled.natAbs < 10 ^ p) (hsp : s ≤ p)
    (hwhole : p - s ≤ p' - s') (hs : s ≤ s') (hsp' : s' ≤ p') (hp' : p' ≤ maxPrecision) :
    l.rescale s' = .ok (l.unscaled * 10 ^ (s' - s)) ∧
      (l.unscaled * 10 ^ (s' - s)).natAbs < 10 ^ p' := by
  have hlt : (l.unscaled * 10 ^ (s' - s)).natAbs < 10 ^ p' := by
    rw [Int.natAbs_mul, Int.natAbs_pow]
    calc l.unscaled.natAbs * 10 ^ (s' - s) < 10 ^ p * 10 ^ (s' - s) :=
          Nat.mul_lt_mul_of_pos_right hl (Nat.pow_pos (by decide))
      _ = 10 ^ (p + (s' - s)) := (Nat.pow_add _ _ _).symm
      _ ≤ 10 ^ p' := Nat.pow_le_pow_right (by decide) (by omega)
  refine ⟨?_, hlt⟩
  apply rescale_near
  · rw [hscale]
    omega
  · omega
  · exact fits_wide (hlt.trans_le (Nat.pow_le_pow_right (by decide) hp'))

end Literal

namespace Decimal

theorem of_unscaled_some {z : Int} {p s : Nat} (hp : 0 < p) (hmax : p ≤ maxPrecision) (hs : s ≤ p)
    (hz : z.natAbs < 10 ^ p) :
    ∃ d, ofUnscaled? z p s = some d ∧ d.unscaled = z ∧ d.precision = p ∧ d.scale = s :=
  ⟨⟨z, p, s, hp, hmax, hs, hz⟩, dif_pos ⟨hp, hmax, hs, hz⟩, rfl, rfl, rfl⟩

theorem of_unscaled_iff {z : Int} {p s : Nat} {d : Decimal} :
    ofUnscaled? z p s = some d ↔ d.unscaled = z ∧ d.precision = p ∧ d.scale = s := by
  constructor
  · intro h
    unfold ofUnscaled? at h
    split at h
    · obtain rfl := Option.some.inj h
      exact ⟨rfl, rfl, rfl⟩
    · contradiction
  · rintro ⟨rfl, rfl, rfl⟩
    exact dif_pos ⟨d.precision_pos, d.precision_le, d.scale_le, d.unscaled_lt⟩

theorem try_literal_iff {text : String} {p s : Nat} {d : Decimal} : tryLiteral text p s = .ok d ↔
    ∃ l u, Literal.parse? text = some l ∧ l.rescale s = .ok u ∧ ofUnscaled? u p s = some d := by
  rw [tryLiteral]
  cases Literal.parse? text with
  | none => simp only [reduceCtorEq, false_and, exists_false, iff_false]; exact nofun
  | some l =>
    rw [Words.given, Words.ok_bind]
    cases hu : l.rescale s with
    | error fault => simp [hu, Bind.bind, Except.bind]
    | ok u =>
      rw [Words.ok_bind, Words.given_ok_iff]
      simp [hu]

theorem try_literal_wraps_iff {text : String} {p s bits : Nat} : tryLiteral text p s = .error (.wrapped bits) ↔
    ∃ l, Literal.parse? text = some l ∧ l.rescale s = .error (.wrapped bits) := by
  rw [tryLiteral]
  cases Literal.parse? text with
  | none => simp only [reduceCtorEq, false_and, exists_false, iff_false]; exact nofun
  | some l =>
    rw [Words.given, Words.ok_bind]
    cases hu : l.rescale s with
    | error fault => simp [hu, Bind.bind, Except.bind]
    | ok u =>
      rw [Words.ok_bind]
      cases ofUnscaled? u p s <;> simp [hu, Words.given]

theorem of_literal_iff {text : String} {p s : Nat} {d : Decimal} : ofLiteral text p s = .ok d ↔
    ∃ l u, Literal.parse? text = some l ∧ l.rescale s = .ok u ∧ ofUnscaled? u p s = some d := by
  rw [← try_literal_iff, ofLiteral]
  cases tryLiteral text p s with
  | error fault => cases fault <;> simp only [reduceCtorEq]
  | ok d' => simp only [Except.ok.injEq]

theorem of_literal_widen {text : String} {l : Literal} {p s p' s' : Nat} (hl : Literal.parse? text = some l)
    (hp : 0 < p) (hscale : l.scale = s) (hlt : l.unscaled.natAbs < 10 ^ p) (hsp : s ≤ p)
    (hwhole : p - s ≤ p' - s') (hs : s ≤ s') (hsp' : s' ≤ p') (hp' : p' ≤ maxPrecision) :
    ∃ d, ofLiteral text p' s' = .ok d := by
  obtain ⟨hrescale, hbound⟩ := Literal.rescale_widen hscale hlt hsp hwhole hs hsp' hp'
  obtain ⟨d, hd, -⟩ := of_unscaled_some (by omega : 0 < p') hp' hsp' hbound
  exact ⟨d, of_literal_iff.mpr ⟨l, _, hl, hrescale, hd⟩⟩

end Decimal

end TypedRecords
