import Mathlib.Algebra.Group.Nat.Defs
import Mathlib.Data.List.Induction
import TypedRecords.Text.Digits
/-!
# Laws of digit strings

The digits of a number are read back as that number. Digits with leading zeros, and runs of digits in front of
another text, are read as they were written.
-/

namespace TypedRecords.Text

variable {c : Char} {cs ds rest : List Char}

theorem is_digit_iff : isDigit c = true ↔ 48 ≤ c.toNat ∧ c.toNat ≤ 57 := by
  simp only [isDigit, Bool.and_eq_true, decide_eq_true_eq]
  exact Iff.rfl

theorem is_digit_of_char (h : c.isDigit = true) : isDigit c = true := by
  simp only [Char.isDigit, Bool.and_eq_true, decide_eq_true_eq, ge_iff_le] at h
  exact is_digit_iff.mpr h

theorem digit_value_lt (h : isDigit c = true) : digitValue c < 10 := by
  have hc := is_digit_iff.mp h
  have hzero : '0'.toNat = 48 := rfl
  simp only [digitValue, hzero]
  omega

theorem digits_value_append (cs ds : List Char) :
    digitsValue (cs ++ ds) = 10 ^ ds.length * digitsValue cs + digitsValue ds := by
  have h : digitsValue (cs ++ ds) = Nat.ofDigitChars 10 ds (digitsValue cs) :=
    Nat.ofDigitChars_append 0
  rw [h, Nat.ofDigitChars_eq_ofDigitChars_zero]
  rfl

theorem digits_value_zeros (n : Nat) (cs : List Char) :
    digitsValue (List.replicate n '0' ++ cs) = digitsValue cs := by
  have hzero : digitsValue (List.replicate n '0') = 0 := Nat.ofDigitChars_replicate_zero
  rw [digits_value_append, hzero, Nat.mul_zero, Nat.zero_add]

theorem digits_value_drop_zeros (cs ds : List Char) :
    digitsValue (cs.dropWhile (· == '0') ++ ds) = digitsValue (cs ++ ds) := by
  induction cs with
  | nil => rfl
  | cons c cs ih =>
    by_cases hc : c = '0'
    · rw [List.dropWhile_cons_of_pos (by simpa using hc), ih, hc]
      exact (digits_value_zeros 1 (cs ++ ds)).symm
    · rw [List.dropWhile_cons_of_neg (by simpa using hc)]

theorem zeros_all (n : Nat) : (List.replicate n '0').all isDigit = true := by
  rw [List.all_replicate]
  split <;> rfl

theorem digits_value_append_zeros (cs : List Char) (n : Nat) :
    digitsValue (cs ++ List.replicate n '0') = digitsValue cs * 10 ^ n := by
  have hzero : digitsValue (List.replicate n '0') = 0 := Nat.ofDigitChars_replicate_zero
  rw [digits_value_append, hzero, List.length_replicate, Nat.add_zero, Nat.mul_comm]

theorem digits_value_lt (h : cs.all isDigit = true) : digitsValue cs < 10 ^ cs.length := by
  induction cs using List.reverseRecOn with
  | nil => simp [digitsValue]
  | append_singleton cs c ih =>
    simp only [List.all_append, List.all_cons, List.all_nil, Bool.and_true, Bool.and_eq_true] at h
    have hcs := ih h.1
    have hc : digitsValue [c] < 10 := by
      have := digit_value_lt h.2
      simpa [digitsValue] using this
    rw [digits_value_append, List.length_append, Nat.pow_add]
    simp only [List.length_singleton]
    omega

theorem pow_le_digits_value {c : Char} (hc : isDigit c = true) (hlead : c ≠ '0') (cs : List Char) :
    10 ^ cs.length ≤ digitsValue (c :: cs) := by
  have hvalue : 0 < digitsValue [c] := by
    have hrange := is_digit_iff.mp hc
    have hcode : c.toNat ≠ 48 := by
      intro hzero
      exact hlead (Char.toNat_inj.mp hzero)
    simp only [digitsValue, List.foldl_cons, List.foldl_nil, digitValue]
    change 0 < 10 * 0 + (c.toNat - 48)
    omega
  have happend := digits_value_append [c] cs
  rw [List.singleton_append] at happend
  rw [happend]
  have := Nat.le_mul_of_pos_left (10 ^ cs.length) hvalue
  rw [mul_comm] at this
  omega

theorem digits_of_all (n : Nat) : (digitsOf n).all isDigit = true :=
  List.all_eq_true.mpr fun _ hc =>
    is_digit_of_char (Nat.isDigit_of_mem_toDigits (by decide) (by decide) hc)

theorem digits_of_ne_nil (n : Nat) : digitsOf n ≠ [] := Nat.toDigits_ne_nil

@[simp] theorem digits_of_zero : digitsOf 0 = ['0'] := rfl

@[simp] theorem digits_value_digits_of (n : Nat) : digitsValue (digitsOf n) = n :=
  Nat.ofDigitChars_ten_toDigits

theorem digits_of_length_le {n k : Nat} (hk : 0 < k) : (digitsOf n).length ≤ k ↔ n < 10 ^ k :=
  Nat.length_toDigits_le_iff (by decide) hk

theorem lt_pow_digits_of (n : Nat) : n < 10 ^ (digitsOf n).length :=
  (digits_of_length_le (List.length_pos_iff.mpr (digits_of_ne_nil n))).mp (Nat.le_refl _)

theorem pow_digits_of_le {n : Nat} (hn : 0 < n) : 10 ^ ((digitsOf n).length - 1) ≤ n := by
  by_contra h
  have hlt : n < 10 ^ ((digitsOf n).length - 1) := by omega
  have hpos := List.length_pos_iff.mpr (digits_of_ne_nil n)
  by_cases hone : (digitsOf n).length = 1
  · simp [hone] at hlt
    omega
  · have := (digits_of_length_le (by omega)).mpr hlt
    omega

theorem digits_of_length_mul_pow {n : Nat} (hn : 0 < n) (k : Nat) :
    (digitsOf (n * 10 ^ k)).length = (digitsOf n).length + k := by
  have hlow := pow_digits_of_le hn
  have hpos := List.length_pos_iff.mpr (digits_of_ne_nil n)
  apply Nat.le_antisymm
  · rw [digits_of_length_le (by omega), Nat.pow_add]
    exact Nat.mul_lt_mul_of_pos_right (lt_pow_digits_of n) (Nat.pow_pos (by decide))
  · by_contra hlt
    have hshort := lt_pow_digits_of (n * 10 ^ k)
    have hle : 10 ^ (digitsOf (n * 10 ^ k)).length ≤ 10 ^ ((digitsOf n).length - 1 + k) :=
      Nat.pow_le_pow_right (by decide) (by omega)
    rw [Nat.pow_add] at hle
    have := Nat.mul_le_mul_right (10 ^ k) hlow
    omega

theorem digits_of_head {n : Nat} (hn : 0 < n) : (digitsOf n).head? ≠ some '0' := by
  intro h
  obtain ⟨ds, hds⟩ : ∃ ds, digitsOf n = '0' :: ds := by
    cases hd : digitsOf n <;> simp_all
  have hall := digits_of_all n
  rw [hds, List.all_cons, Bool.and_eq_true] at hall
  have hval : digitsValue ds = n := by
    rw [← digits_value_zeros 1 ds]
    simpa [hds] using digits_value_digits_of n
  have hlt := digits_value_lt hall.2
  have hle := pow_digits_of_le hn
  rw [hds, List.length_cons, Nat.add_sub_cancel] at hle
  omega

theorem digits_of_lead {n : Nat} (h : (digitsOf n).head? = some '0') : digitsOf n = ['0'] := by
  by_cases hn : 0 < n
  · exact absurd h (digits_of_head hn)
  · rw [Nat.eq_zero_of_not_pos hn, digits_of_zero]

theorem nat_of_digits_some (hne : cs ≠ []) (h : cs.all isDigit = true) :
    natOfDigits? cs = some (digitsValue cs) := by
  simp [natOfDigits?, h, hne]

@[simp] theorem nat_of_digits_digits_of (n : Nat) : natOfDigits? (digitsOf n) = some n := by
  rw [nat_of_digits_some (digits_of_ne_nil n) (digits_of_all n), digits_value_digits_of]

theorem not_is_digit_sign (h : isDigit c = true) : c ≠ '-' ∧ c ≠ '+' := by
  constructor
  all_goals
    rintro rfl
    contradiction

theorem signed_nat_abs (z : Int) : (if decide (z < 0) then -(z.natAbs : Int) else z.natAbs) = z := by
  by_cases hz : z < 0
  · rw [if_pos (decide_eq_true hz)]
    omega
  · rw [if_neg (by simpa using hz)]
    omega

theorem signed_of_digits_unsigned (h : cs.all isDigit = true) :
    signedOfDigits? cs = (natOfDigits? cs).map Int.ofNat := by
  cases cs with
  | nil => rfl
  | cons c cs =>
    rw [List.all_cons, Bool.and_eq_true] at h
    have hc := not_is_digit_sign h.1
    unfold signedOfDigits?
    split
    · next heq => exact absurd (List.cons.inj heq).1 hc.1
    · next heq => exact absurd (List.cons.inj heq).1 hc.2
    · cases natOfDigits? (c :: cs) <;> rfl

theorem signed_of_digits_int_digits (z : Int) : signedOfDigits? (intDigits z) = some z := by
  unfold intDigits
  split
  · simp only [signedOfDigits?, nat_of_digits_digits_of]
    exact congrArg some (show -(z.natAbs : Int) = z by omega)
  · rw [signed_of_digits_unsigned (digits_of_all _), nat_of_digits_digits_of]
    exact congrArg some (show (z.natAbs : Int) = z by omega)

theorem pad_digits_all (width : Nat) (h : cs.all isDigit = true) :
    (padDigits width cs).all isDigit = true := by
  rw [padDigits, List.all_append, h, Bool.and_true, List.all_eq_true]
  intro c hc
  rw [(List.mem_replicate.mp hc).2]
  rfl

@[simp] theorem digits_value_pad (width : Nat) (cs : List Char) :
    digitsValue (padDigits width cs) = digitsValue cs := digits_value_zeros _ _

theorem pad_digits_length (h : cs.length ≤ width) : (padDigits width cs).length = width := by
  rw [padDigits, List.length_append, List.length_replicate]
  omega

theorem pad_digits_lead {n : Nat} (hw : 0 < width) (h : (padDigits width (digitsOf n)).head? = some '0') :
    (padDigits width (digitsOf n)).length = width := by
  by_cases hshort : (digitsOf n).length ≤ width
  · exact pad_digits_length hshort
  · have hpad : width - (digitsOf n).length = 0 := by omega
    rw [padDigits, hpad, List.replicate_zero, List.nil_append] at h
    rw [digits_of_lead h] at hshort
    exact absurd hw hshort

theorem span_digits_stop (cs : List Char) : (spanDigits cs).2.head?.any isDigit = false := by
  have hstop := List.head?_dropWhile_not isDigit cs
  rw [spanDigits]
  cases h : (cs.dropWhile isDigit).head? <;> simp_all

theorem span_digits_run (h : cs.all isDigit = true) (hrest : rest.head?.any isDigit = false) :
    spanDigits (cs ++ rest) = (cs, rest) := by
  have hall : ∀ c ∈ cs, isDigit c = true := fun c hc => List.all_eq_true.mp h c hc
  rw [spanDigits, List.takeWhile_append_of_pos hall, List.dropWhile_append_of_pos hall]
  cases rest with
  | nil => simp
  | cons c rest => simp_all

end TypedRecords.Text
