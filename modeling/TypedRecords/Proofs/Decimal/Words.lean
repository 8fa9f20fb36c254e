import TypedRecords.Proofs.Decimal.Nearest
/-!
# Decimals in machine words

Reading the digits of a literal one machine operation after the other, on words of 128 bits. A step is checked, and then a
result that leaves its word refuses the literal, or it is not, and then the result would wrap around. The steps together
give the literal that is read at once, and so the same decimal or the same fault.
-/

namespace TypedRecords

-- Powers are the core library's, whatever else is in scope.
attribute [local instance (5000)] instPowNat

open Text

namespace Words

def pushDigit (z : Int) (c : Char) : Except WordFault Int := do
  if isDigit c then
    let tens ← checked 128 (z * 10)
    checked 128 (tens + digitValue c)
  else .error .refused

def negateIf (negative : Bool) (z : Int) : Except WordFault Int := if negative then unchecked 128 (-z) else .ok z

def literal (text : String) : Except WordFault Literal :=
  match Literal.splitExponent? text.toList with
  | none => .error .refused
  | some (mantissa, exponent) => do
    let (negative, digits) := Literal.splitSign mantissa
    let (whole, fraction) := Literal.splitPoint digits
    if (whole ++ fraction).isEmpty then .error .refused
    else
      let n ← (whole ++ fraction).foldlM pushDigit 0
      let places ← checked 32 fraction.length
      let scale ← checked 32 (places - exponent)
      let unscaled ← negateIf negative n
      return ⟨unscaled, scale⟩

def decimal (text : String) (precision scale : Nat) : Except WordFault Decimal := do
  let l ← literal text
  let unscaled ← l.rescale scale
  given (Decimal.ofUnscaled? unscaled precision scale)

variable {α β : Type} {cs : List Char} {z : Int} {bits : Nat}

theorem given_bind {r : Except WordFault α} {x : Option α} {f : α → Except WordFault β} {g : α → Option β}
    (h : r = given x) (hf : ∀ a, x = some a → f a = given (g a)) : (r >>= f) = given (x.bind g) := by
  cases x with
  | none =>
    rw [h]
    rfl
  | some a =>
    rw [h]
    exact hf a rfl

theorem checked_given (bits : Nat) (z : Int) : checked bits z = given (fitting? bits z) := by
  unfold checked fitting?
  split
  all_goals rfl

def pushed (n : Nat) (cs : List Char) : Nat := cs.foldl (fun n c => 10 * n + digitValue c) n

theorem le_pushed (n : Nat) (cs : List Char) : n ≤ pushed n cs := by
  induction cs generalizing n with
  | nil => exact le_refl n
  | cons c cs ih =>
    have := ih (10 * n + digitValue c)
    change n ≤ pushed (10 * n + digitValue c) cs
    omega

theorem push_given (n : Nat) {c : Char} (hc : isDigit c = true) :
    pushDigit n c = given (fitting? 128 (10 * n + digitValue c : Nat)) := by
  have hword : ((10 * n + digitValue c : Nat) : Int) = n * 10 + digitValue c := by
    push_cast
    ring
  have hsteps : fitting? 128 ((n : Int) * 10 + digitValue c) =
      (fitting? 128 (n * 10)).bind fun tens => fitting? 128 (tens + digitValue c) := by
    by_cases htens : Fits 128 ((n : Int) * 10)
    · rw [fitting_of_fits htens, Option.bind_some]
    · have hsum : ¬ Fits 128 ((n : Int) * 10 + digitValue c) := by
        intro hsum
        apply htens
        unfold Fits at hsum ⊢
        omega
      rw [fitting?, if_neg hsum, fitting?, if_neg htens, Option.bind_none]
  rw [pushDigit, if_pos hc, hword, hsteps]
  apply given_bind (checked_given 128 _)
  intro tens _
  exact checked_given 128 _

/-- Digits only make the word larger, so the first step that leaves it decides. -/
theorem digits_given {n : Nat} (hn : Fits 128 n) :
    cs.foldlM pushDigit (n : Int) = given (if cs.all isDigit then fitting? 128 (pushed n cs : Nat) else none) := by
  induction cs generalizing n with
  | nil =>
    have hfits : fitting? 128 (pushed n [] : Nat) = some (n : Int) := fitting_of_fits hn
    rw [List.all_nil, if_pos rfl, hfits]
    rfl
  | cons c cs ih =>
    rw [List.foldlM_cons, List.all_cons]
    by_cases hc : isDigit c = true
    · have hnext : (if isDigit c && cs.all isDigit then fitting? 128 (pushed n (c :: cs) : Nat) else none) =
          (fitting? 128 (10 * n + digitValue c : Nat)).bind fun _ =>
            if cs.all isDigit then fitting? 128 (pushed (10 * n + digitValue c) cs : Nat) else none := by
        rw [hc, Bool.true_and]
        by_cases hfits : Fits 128 ((10 * n + digitValue c : Nat) : Int)
        · rw [fitting_of_fits hfits]
          rfl
        · have hlast := le_pushed (10 * n + digitValue c) cs
          have hlarge : ¬ Fits 128 ((pushed n (c :: cs) : Nat) : Int) := by
            intro hpushed
            apply hfits
            change Fits 128 ((pushed (10 * n + digitValue c) cs : Nat) : Int) at hpushed
            unfold Fits at hpushed ⊢
            omega
          rw [fitting?, if_neg hlarge, fitting?, if_neg hfits, ite_self]
          rfl
      rw [hnext]
      apply given_bind (push_given n hc)
      intro z hz
      obtain ⟨hfits, rfl⟩ := fitting_inv hz
      exact ih hfits
    · have hpush : pushDigit n c = .error .refused := if_neg hc
      rw [hpush, Bool.not_eq_true] at *
      rw [hc]
      rfl

theorem run_given (hne : cs ≠ []) :
    cs.foldlM pushDigit 0 = given ((natOfDigits? cs).bind fun n => fitting? 128 n) := by
  have hrun : ((natOfDigits? cs).bind fun n => fitting? 128 n) =
      if cs.all isDigit then fitting? 128 (pushed 0 cs : Nat) else none := by
    by_cases hall : cs.all isDigit = true
    · rw [nat_of_digits_some hne hall, if_pos hall, Option.bind_some]
      rfl
    · have hnone : natOfDigits? cs = none := by
        apply if_neg
        rw [Bool.and_eq_true]
        exact fun h => hall h.2
      rw [if_neg hall, hnone, Option.bind_none]
  rw [hrun]
  exact digits_given (n := 0) (by decide)

/-- The digits before the sign are not negative, so their negation is in the word as well. -/
theorem negate_fits (negative : Bool) {n : Nat} (hn : Fits 128 n) :
    negateIf negative n = .ok (if negative then -(n : Int) else n) := by
  cases negative with
  | false => rfl
  | true =>
    have hneg : Fits 128 (-(n : Int)) := by
      unfold Fits at hn ⊢
      omega
    exact unchecked_fits hneg

theorem literal_given (text : String) : literal text = given (Literal.parse? text) := by
  rw [literal, Literal.parse?]
  cases Literal.splitExponent? text.toList with
  | none => rfl
  | some parts =>
    obtain ⟨mantissa, exponent⟩ := parts
    dsimp only [Option.bind_eq_bind, Option.bind_some]
    generalize Literal.splitSign mantissa = signed
    obtain ⟨negative, digits⟩ := signed
    dsimp only
    generalize Literal.splitPoint digits = run
    obtain ⟨whole, fraction⟩ := run
    dsimp only
    by_cases hne : whole ++ fraction = []
    · rw [hne]
      rfl
    · have hempty : ¬ (whole ++ fraction).isEmpty = true := by
        rwa [List.isEmpty_iff]
      rw [if_neg hempty, ← Option.bind_assoc]
      apply given_bind (run_given hne)
      intro z hz
      obtain ⟨n, -, hn⟩ := Option.bind_eq_some_iff.mp hz
      obtain ⟨hfits, rfl⟩ := fitting_inv hn
      apply given_bind (checked_given 32 _)
      intro places _
      apply given_bind (checked_given 32 _)
      intro scale _
      rw [negate_fits negative hfits]
      rfl

theorem literal_ok_iff {text : String} {l : Literal} : literal text = .ok l ↔ Literal.parse? text = some l := by
  rw [literal_given]
  exact given_ok_iff

theorem decimal_given (text : String) (p s : Nat) : decimal text p s = Decimal.tryLiteral text p s := by
  rw [decimal, literal_given]
  rfl

theorem decimal_wraps {text : String} {p s bits : Nat} (h : decimal text p s = .error (.wrapped bits)) : bits = 32 := by
  rw [decimal_given, Decimal.try_literal_wraps_iff] at h
  obtain ⟨l, hl, hwraps⟩ := h
  exact ((Literal.rescale_wraps_iff (Literal.parse_fits hl) (Literal.parse_scale hl).2).mp hwraps).1

end Words

end TypedRecords
