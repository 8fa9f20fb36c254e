import Mathlib.Algebra.Field.Rat
import Mathlib.Data.Rat.Cast.CharZero
import Mathlib.Tactic.FieldSimp
import Mathlib.Tactic.Ring
import TypedRecords.Proofs.DataType.Numbers
import TypedRecords.Word
/-!
# Merged number types hold the numbers of both

A decimal type holds the numbers of another one exactly when it has as many digits on both sides of the point. So the
merged type is the least that holds the numbers of two decimal types, and `double` comes of them only where no decimal
type holds all.
-/

namespace TypedRecords.DataType

/-- The numbers of integral and decimal types. -/
def Holds : DataType → ℚ → Prop
  | .byte, q => ∃ z : ℤ, Fits 8 z ∧ q = z
  | .short, q => ∃ z : ℤ, Fits 16 z ∧ q = z
  | .integer, q => ∃ z : ℤ, Fits 32 z ∧ q = z
  | .long, q => ∃ z : ℤ, Fits 64 z ∧ q = z
  | .decimal p s, q => ∃ u : ℤ, u.natAbs < 10 ^ p ∧ q = u / 10 ^ s
  | _, _ => False

def IsExact : DataType → Prop
  | .decimal p s => s ≤ p ∧ p ≤ maxPrecision
  | t => t.isIntegral = true

variable {a b t : DataType} {p s p' s' : Nat} {q : ℚ}

section Decimals

theorem ten_pow_ne (n : Nat) : (10 : ℚ) ^ n ≠ 0 := pow_ne_zero n (by norm_num)

theorem holds_decimal_mono (hs : s ≤ s') (hp : p + s' ≤ p' + s) (h : Holds (.decimal p s) q) :
    Holds (.decimal p' s') q := by
  obtain ⟨u, hu, rfl⟩ := h
  obtain ⟨k, rfl⟩ := Nat.exists_eq_add_of_le hs
  refine ⟨u * 10 ^ k, ?_, ?_⟩
  · calc (u * 10 ^ k).natAbs = u.natAbs * 10 ^ k := by rw [Int.natAbs_mul, Int.natAbs_pow]; rfl
      _ < 10 ^ p * 10 ^ k := Nat.mul_lt_mul_of_pos_right hu (Nat.pow_pos (by decide))
      _ = 10 ^ (p + k) := (pow_add 10 p k).symm
      _ ≤ 10 ^ p' := Nat.pow_le_pow_right (by decide) (by omega)
  · push_cast
    rw [div_eq_div_iff (ten_pow_ne s) (ten_pow_ne (s + k)), pow_add]
    ring

/-- The number with the most digits is only in decimal types that have as many on both sides of the point. -/
theorem holds_digits (hp : 0 < p) (h : Holds (.decimal p' s') (((10 ^ p - 1 : ℤ) : ℚ) / 10 ^ s)) :
    s ≤ s' ∧ p + s' ≤ p' + s := by
  obtain ⟨u, hu, heq⟩ := h
  have hint : (10 ^ p - 1 : ℤ) * 10 ^ s' = u * 10 ^ s := by
    rw [div_eq_div_iff (ten_pow_ne s) (ten_pow_ne s')] at heq
    exact_mod_cast heq
  have hscale : s ≤ s' := by
    by_contra hlt
    obtain ⟨k, rfl⟩ := Nat.exists_eq_add_of_lt (Nat.not_le.mp hlt)
    have hcancel : (10 ^ p - 1 : ℤ) = 10 * (u * 10 ^ k) := by
      apply mul_right_cancel₀ (pow_ne_zero s' (by decide : (10 : ℤ) ≠ 0))
      rw [hint, pow_succ, pow_add]
      ring
    -- The last digit of the number is a nine.
    obtain ⟨m, hm⟩ : (10 : ℤ) ∣ 10 ^ p := dvd_pow_self 10 hp.ne'
    omega
  refine ⟨hscale, ?_⟩
  obtain ⟨k, rfl⟩ := Nat.exists_eq_add_of_le hscale
  have hunscaled : u = ((10 ^ p - 1) * 10 ^ k : ℕ) := by
    apply mul_right_cancel₀ (pow_ne_zero s (by decide : (10 : ℤ) ≠ 0))
    rw [← hint, Nat.cast_mul, Nat.cast_sub (Nat.one_le_pow _ _ (by decide)), pow_add]
    push_cast
    ring
  by_contra hlt
  have hlarge : 10 ^ p' ≤ (10 ^ p - 1) * 10 ^ k := by
    calc 10 ^ p' ≤ 10 ^ (p - 1 + k) := Nat.pow_le_pow_right (by decide) (by omega)
      _ = 10 ^ (p - 1) * 10 ^ k := pow_add 10 (p - 1) k
      _ ≤ (10 ^ p - 1) * 10 ^ k := by
        apply Nat.mul_le_mul_right
        exact Nat.le_sub_one_of_lt (Nat.pow_lt_pow_right (by decide) (by omega))
  rw [hunscaled, Int.natAbs_natCast] at hu
  omega

theorem holds_decimal_iff : (∀ q, Holds (.decimal p s) q → Holds (.decimal p' s') q) ↔
    p = 0 ∨ s ≤ s' ∧ p + s' ≤ p' + s := by
  constructor
  · intro h
    by_cases hp : p = 0
    · exact Or.inl hp
    · right
      have hpos : 0 < p := Nat.pos_of_ne_zero hp
      apply holds_digits hpos
      apply h
      refine ⟨10 ^ p - 1, ?_, rfl⟩
      have hone : 1 ≤ 10 ^ p := Nat.one_le_pow _ _ (by decide)
      have hcast : (10 ^ p - 1 : ℤ) = ((10 ^ p - 1 : ℕ) : ℤ) := by
        rw [Nat.cast_sub hone]
        push_cast
        rfl
      rw [hcast, Int.natAbs_natCast]
      omega
  · rintro (rfl | ⟨hs, hp⟩) q h
    · -- The only number without digits is zero.
      obtain ⟨u, hu, rfl⟩ := h
      obtain rfl : u = 0 := by
        rw [pow_zero] at hu
        omega
      exact ⟨0, Nat.pow_pos (by decide), by simp⟩
    · exact holds_decimal_mono hs hp h

end Decimals

section Spans

def Span.decimal (x : Span) : DataType := .decimal (x.1 + x.2.1) x.2.1

theorem holds_sup {x y : Span} (h : Holds x.decimal q) : Holds (Span.decimal (x ⊔ y)) q := by
  have hfst : x.1 ≤ (x ⊔ y).1 := le_max_left _ _
  have hsnd : x.2.1 ≤ (x ⊔ y).2.1 := le_max_left _ _
  exact holds_decimal_mono hsnd (by omega) h

theorem holds_word {z : ℤ} {bits digits : Nat} (hz : Fits bits z) (hdigits : 2 ^ (bits - 1) < 10 ^ digits) :
    Holds (.decimal digits 0) z := by
  refine ⟨z, ?_, by simp⟩
  obtain ⟨hlow, hhigh⟩ := hz
  have hcast : ((2 ^ (bits - 1) : ℕ) : ℤ) = 2 ^ (bits - 1) := by push_cast; rfl
  omega

theorem holds_span (ht : t.IsExact) (h : Holds t q) : Holds t.span.decimal q := by
  cases t with
  | byte =>
    obtain ⟨z, hz, rfl⟩ := h
    exact holds_word hz (by decide)
  | short =>
    obtain ⟨z, hz, rfl⟩ := h
    exact holds_word hz (by decide)
  | integer =>
    obtain ⟨z, hz, rfl⟩ := h
    exact holds_word hz (by decide)
  | long =>
    obtain ⟨z, hz, rfl⟩ := h
    exact holds_word hz (by decide)
  | decimal p s =>
    have hdigits : p - s + s = p := Nat.sub_add_cancel ht.1
    change Holds (.decimal (p - s + s) s) q
    rwa [hdigits]
  | _ => contradiction

end Spans

theorem IsExact.number (h : t.IsExact) : t.isNumber = true := by
  cases t <;> first | rfl | contradiction

theorem IsExact.decimal_valid (h : t.IsExact) : t.DecimalValid := by
  cases t <;> first | exact h | trivial

theorem merge_exact (ha : a.IsExact) (hb : b.IsExact) : merge a b = ofSpan (a.span ⊔ b.span) := by
  apply merge_numbers ha.number hb.number ha.decimal_valid
  rintro ⟨rfl, -⟩
  contradiction

theorem of_span_decimal {x : Span} (h : x.2.2 = true) :
    ofSpan x = .double ∧ maxPrecision < x.1 + x.2.1 ∨ ofSpan x = x.decimal ∧ x.1 + x.2.1 ≤ maxPrecision := by
  by_cases hmax : maxPrecision < x.1 + x.2.1
  · exact Or.inl ⟨if_pos hmax, hmax⟩
  · right
    rw [ofSpan, if_neg hmax, if_pos h]
    exact ⟨rfl, Nat.not_lt.mp hmax⟩

theorem span_sup_decimal (h : ∃ p s, a = .decimal p s ∨ b = .decimal p s) : (a.span ⊔ b.span).2.2 = true := by
  obtain ⟨p, s, rfl | rfl⟩ := h
  · exact Bool.true_or b.span.2.2
  · exact Bool.or_true a.span.2.2

theorem merge_holds (ha : a.IsExact) (hb : b.IsExact) (h : ∃ p s, a = .decimal p s ∨ b = .decimal p s) :
    merge a b = .double ∨ ∃ p s, merge a b = .decimal p s ∧ s ≤ p ∧ p ≤ maxPrecision ∧
      ∀ q, Holds a q ∨ Holds b q → Holds (.decimal p s) q := by
  rw [merge_exact ha hb]
  rcases of_span_decimal (span_sup_decimal h) with ⟨hdouble, -⟩ | ⟨hdecimal, hmax⟩
  · exact Or.inl hdouble
  · refine Or.inr ⟨_, _, hdecimal, Nat.le_add_left _ _, hmax, ?_⟩
    rintro q (hq | hq)
    · exact holds_sup (holds_span ha hq)
    · have hsup : Holds (Span.decimal (b.span ⊔ a.span)) q := holds_sup (holds_span hb hq)
      rwa [sup_comm] at hsup

section Least

variable {p₁ s₁ p₂ s₂ : Nat}

theorem holds_both_iff (h₁ : s₁ ≤ p₁) (h₂ : s₂ ≤ p₂) :
    (∀ q, Holds (.decimal p₁ s₁) q ∨ Holds (.decimal p₂ s₂) q → Holds (.decimal p s) q) ↔
      p₁ = 0 ∧ p₂ = 0 ∨ max s₁ s₂ ≤ s ∧ max (p₁ - s₁) (p₂ - s₂) + s ≤ p := by
  simp only [or_imp, forall_and, holds_decimal_iff]
  omega

theorem merge_decimals_eq (h₁ : s₁ ≤ p₁) (h₂ : s₂ ≤ p₂) (hmax₁ : p₁ ≤ maxPrecision) (hmax₂ : p₂ ≤ maxPrecision) :
    merge (.decimal p₁ s₁) (.decimal p₂ s₂) =
      if maxPrecision < max (p₁ - s₁) (p₂ - s₂) + max s₁ s₂ then .double
      else .decimal (max (p₁ - s₁) (p₂ - s₂) + max s₁ s₂) (max s₁ s₂) := by
  have ha : IsExact (.decimal p₁ s₁) := ⟨h₁, hmax₁⟩
  have hb : IsExact (.decimal p₂ s₂) := ⟨h₂, hmax₂⟩
  rw [merge_exact ha hb]
  rfl

/-- The merged type has no more digits on either side of the point than any decimal type that holds the numbers of both.
The scale of that type is within its precision, unless zero is the only number to be held. -/
theorem merge_decimals_least (h₁ : s₁ ≤ p₁) (h₂ : s₂ ≤ p₂) (hmax₁ : p₁ ≤ maxPrecision) (hmax₂ : p₂ ≤ maxPrecision)
    (h : merge (.decimal p₁ s₁) (.decimal p₂ s₂) = .decimal p s)
    (hboth : ∀ q, Holds (.decimal p₁ s₁) q ∨ Holds (.decimal p₂ s₂) q → Holds (.decimal p' s') q) :
    s ≤ s' ∧ p - s ≤ p' - s' ∧ (s' ≤ p' ∨ p = 0) := by
  have hdigits := (holds_both_iff h₁ h₂).mp hboth
  rw [merge_decimals_eq h₁ h₂ hmax₁ hmax₂] at h
  split at h
  · contradiction
  · obtain ⟨rfl, rfl⟩ := DataType.decimal.inj h
    omega

theorem merge_decimals_double (h₁ : s₁ ≤ p₁) (h₂ : s₂ ≤ p₂) (hmax₁ : p₁ ≤ maxPrecision) (hmax₂ : p₂ ≤ maxPrecision) :
    merge (.decimal p₁ s₁) (.decimal p₂ s₂) = .double ↔ ¬ ∃ p s, p ≤ maxPrecision ∧
      ∀ q, Holds (.decimal p₁ s₁) q ∨ Holds (.decimal p₂ s₂) q → Holds (.decimal p s) q := by
  rw [merge_decimals_eq h₁ h₂ hmax₁ hmax₂]
  simp only [holds_both_iff h₁ h₂]
  split
  · next hmax =>
    refine iff_of_true rfl ?_
    rintro ⟨p, s, hp, hdigits⟩
    omega
  · next hmax =>
    refine iff_of_false nofun ?_
    exact not_not_intro ⟨_, _, Nat.not_lt.mp hmax, Or.inr ⟨le_rfl, le_rfl⟩⟩

/-- No number is lost where a decimal type is merged with another one or with an integral type, unless the type becomes
`double`. Of two decimal types the merged one is the least that holds the numbers of both, and they become `double`
exactly when no decimal type does. -/
theorem merge_numbers_exact :
    (∀ a b : DataType, a.IsExact → b.IsExact → (∃ p s, a = .decimal p s ∨ b = .decimal p s) →
      merge a b = .double ∨ ∃ p s, merge a b = .decimal p s ∧ s ≤ p ∧ p ≤ maxPrecision ∧
        ∀ q, Holds a q ∨ Holds b q → Holds (.decimal p s) q) ∧
    ∀ p₁ s₁ p₂ s₂, s₁ ≤ p₁ → p₁ ≤ maxPrecision → s₂ ≤ p₂ → p₂ ≤ maxPrecision →
      (∀ p s p' s', merge (.decimal p₁ s₁) (.decimal p₂ s₂) = .decimal p s →
        (∀ q, Holds (.decimal p₁ s₁) q ∨ Holds (.decimal p₂ s₂) q → Holds (.decimal p' s') q) →
          s ≤ s' ∧ p - s ≤ p' - s' ∧ (s' ≤ p' ∨ p = 0)) ∧
      (merge (.decimal p₁ s₁) (.decimal p₂ s₂) = .double ↔ ¬ ∃ p s, p ≤ maxPrecision ∧
        ∀ q, Holds (.decimal p₁ s₁) q ∨ Holds (.decimal p₂ s₂) q → Holds (.decimal p s) q) := by
  constructor
  · intro a b ha hb h
    exact merge_holds ha hb h
  · intro p₁ s₁ p₂ s₂ h₁ hmax₁ h₂ hmax₂
    constructor
    · intro p s p' s' h hboth
      exact merge_decimals_least h₁ h₂ hmax₁ hmax₂ h hboth
    · exact merge_decimals_double h₁ h₂ hmax₁ hmax₂

/-- The largest `long` beside a decimal, two decimals that each have more digits on one side of the point, and two that
have one digit too many. -/
theorem merge_numbers_exact_digits :
    (merge .long (.decimal 5 2) = .decimal 22 2 ∧ Holds .long (2 ^ 63 - 1 : ℤ) ∧
      Holds (.decimal 22 2) (2 ^ 63 - 1 : ℤ)) ∧
    (merge (.decimal 5 2) (.decimal 7 5) = .decimal 8 5 ∧
      (∀ q, Holds (.decimal 5 2) q ∨ Holds (.decimal 7 5) q → Holds (.decimal 10 6) q) ∧
      5 ≤ 6 ∧ 8 - 5 ≤ 10 - 6) ∧
    (merge (.decimal 38 0) (.decimal 1 1) = .double ∧ ¬ ∃ p s, p ≤ maxPrecision ∧
      ∀ q, Holds (.decimal 38 0) q ∨ Holds (.decimal 1 1) q → Holds (.decimal p s) q) := by
  obtain ⟨hexact, hdecimals⟩ := merge_numbers_exact
  have hlong : merge .long (.decimal 5 2) = .decimal 22 2 := rfl
  have hlargest : Holds .long (2 ^ 63 - 1 : ℤ) := ⟨2 ^ 63 - 1, by decide, rfl⟩
  have hheld : Holds (.decimal 22 2) (2 ^ 63 - 1 : ℤ) := by
    rcases hexact .long (.decimal 5 2) rfl ⟨by decide, by decide⟩ ⟨5, 2, Or.inr rfl⟩ with h | ⟨p, s, h, -, -, hq⟩
    · rw [hlong] at h
      contradiction
    · obtain ⟨rfl, rfl⟩ := DataType.decimal.inj (hlong.symm.trans h)
      exact hq _ (Or.inl hlargest)
  have hboth : ∀ q, Holds (.decimal 5 2) q ∨ Holds (.decimal 7 5) q → Holds (.decimal 10 6) q :=
    (holds_both_iff (by decide) (by decide)).mpr (by decide)
  obtain ⟨hscale, hdigits, -⟩ :=
    (hdecimals 5 2 7 5 (by decide) (by decide) (by decide) (by decide)).1 8 5 10 6 rfl hboth
  have hdouble := (hdecimals 38 0 1 1 (by decide) (by decide) (by decide) (by decide)).2.mp rfl
  exact ⟨⟨hlong, hlargest, hheld⟩, ⟨rfl, hboth, hscale, hdigits⟩, rfl, hdouble⟩

end Least

end TypedRecords.DataType
