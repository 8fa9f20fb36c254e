import TypedRecords.Json.Reader
import TypedRecords.Proofs.Text.Digits
/-!
# Numerals

The texts that numbers are kept as. Reading a number gives such a text, and reading it again gives the same.
-/

namespace TypedRecords.Json

open Text

def IsRun (cs : List Char) : Prop := cs ≠ [] ∧ cs.all isDigit = true

instance (cs : List Char) : Decidable (IsRun cs) := inferInstanceAs (Decidable (_ ∧ _))

/-- The parts of a number as it is kept: no fraction is the empty one, and an exponent has its sign. -/
structure Numeral where
  negative : Bool
  whole : List Char
  fraction : List Char
  exponent : Option (Bool × List Char)
  whole_run : IsRun whole
  whole_lead : whole.head? = some '0' → whole = ['0']
  fraction_all : fraction.all isDigit = true
  exponent_run : ∀ e ∈ exponent, IsRun e.2

namespace Numeral

def signChars (negative : Bool) : List Char := if negative then ['-'] else []

def fractionChars (ds : List Char) : List Char := if ds.isEmpty then [] else '.' :: ds

def exponentChars : Option (Bool × List Char) → List Char
  | none => []
  | some (negative, ds) => 'e' :: (if negative then '-' else '+') :: ds

def chars (n : Numeral) : List Char :=
  signChars n.negative ++ n.whole ++ fractionChars n.fraction ++ exponentChars n.exponent

end Numeral

open Numeral

variable {cs ds rest t : List Char}

/-- Digits with a point in front of the last `places` make a numeral, unless zeros stand in front. -/
theorem split_numeral (negative : Bool) {places : Nat} (hall : ds.all isDigit = true) (hlt : places < ds.length)
    (hzero : ds.head? = some '0' → ds.length = places + 1) :
    ∃ n : Numeral, n.chars = signChars negative ++
        (ds.take (ds.length - places) ++ if places = 0 then [] else '.' :: ds.drop (ds.length - places)) ∧
      n.negative = negative ∧ n.exponent = none ∧ n.whole ++ n.fraction = ds ∧ n.fraction.length = places := by
  have hdigit := List.all_eq_true.mp hall
  have hwhole : IsRun (ds.take (ds.length - places)) := by
    refine ⟨?_, List.all_eq_true.mpr fun c hc => hdigit c (List.mem_of_mem_take hc)⟩
    rw [← List.length_pos_iff, List.length_take]
    omega
  have hlead : (ds.take (ds.length - places)).head? = some '0' → ds.take (ds.length - places) = ['0'] := by
    intro hhead
    rw [List.head?_take, if_neg (by omega)] at hhead
    have hone : ds.length - places = 1 := by
      have := hzero hhead
      omega
    cases ds with
    | nil => contradiction
    | cons c cs =>
      obtain rfl := Option.some.inj hhead
      rw [hone]
      rfl
  have hfraction : (ds.drop (ds.length - places)).all isDigit = true :=
    List.all_eq_true.mpr fun c hc => hdigit c (List.mem_of_mem_drop hc)
  have hcount : (ds.drop (ds.length - places)).length = places := by
    rw [List.length_drop]
    omega
  have hempty : (ds.drop (ds.length - places)).isEmpty = decide (places = 0) := by
    rw [Bool.eq_iff_iff, List.isEmpty_iff_length_eq_zero, hcount, decide_eq_true_eq]
  refine ⟨⟨negative, _, _, none, hwhole, hlead, hfraction, by simp⟩, ?_, rfl, rfl, List.take_append_drop .., hcount⟩
  simp [chars, fractionChars, exponentChars, hempty]

theorem whole_part_sound (h : wholePart cs = some (t, rest)) :
    IsRun t ∧ (t.head? = some '0' → t = ['0']) := by
  have hall := span_digits_all cs
  unfold wholePart at h
  split at h
  · contradiction
  · contradiction
  · next part hne hzero =>
    rw [Option.some.inj h] at hall hne hzero
    refine ⟨⟨fun ht => hne rest (by rw [ht]), hall⟩, fun hlead => ?_⟩
    cases t with
    | nil => contradiction
    | cons c t =>
      obtain rfl : c = '0' := Option.some.inj hlead
      cases t with
      | nil => rfl
      | cons d t => exact absurd rfl (hzero d t rest)

theorem whole_part_complete (ht : IsRun t) (hlead : t.head? = some '0' → t = ['0'])
    (hrest : rest.head?.any isDigit = false) : wholePart (t ++ rest) = some (t, rest) := by
  unfold wholePart
  rw [span_digits_run ht.2 hrest]
  split
  · next heq => exact absurd (Prod.mk.inj heq).1 ht.1
  · next d tail _ heq =>
    have hcons := (Prod.mk.inj heq).1
    have := hlead (by rw [hcons]; rfl)
    rw [hcons] at this
    simp at this
  · rfl

theorem fraction_part_sound (h : fractionPart cs = some (t, rest)) :
    ∃ ds, ds.all isDigit = true ∧ t = fractionChars ds := by
  unfold fractionPart at h
  split at h
  · next cs =>
    have hall := span_digits_all cs
    split at h
    · contradiction
    · next ds r hne heq =>
      rw [heq] at hall
      obtain ⟨rfl, -⟩ := Prod.mk.inj (Option.some.inj h)
      cases ds with
      | nil => exact absurd rfl hne
      | cons d ds => exact ⟨d :: ds, hall, rfl⟩
  · obtain ⟨rfl, -⟩ := Prod.mk.inj (Option.some.inj h)
    exact ⟨[], rfl, rfl⟩

theorem fraction_part_complete (hall : ds.all isDigit = true)
    (hrest : rest.head?.any (fun c => isDigit c || c == '.') = false) :
    fractionPart (fractionChars ds ++ rest) = some (fractionChars ds, rest) := by
  cases ds with
  | nil =>
    cases rest with
    | nil => rfl
    | cons c rest =>
      have hc : c ≠ '.' := by
        rintro rfl
        simp at hrest
      simp only [fractionChars, List.isEmpty_nil, if_true, List.nil_append]
      unfold fractionPart
      split
      · next heq => exact absurd (List.cons.inj heq).1 hc
      · rfl
  | cons d ds =>
    have hdigit : rest.head?.any isDigit = false := by
      cases rest <;> simp_all
    simp only [fractionChars, List.isEmpty_cons, Bool.false_eq_true, if_false, List.cons_append]
    rw [fractionPart, ← List.cons_append, span_digits_run hall hdigit]

theorem exponent_part_sound (h : exponentPart cs = some (t, rest)) :
    ∃ e : Option (Bool × List Char), (∀ x ∈ e, IsRun x.2) ∧ t = exponentChars e := by
  unfold exponentPart at h
  split at h
  · next c cs =>
    split at h
    · split at h
      next sign digits hsign =>
      have hall := span_digits_all digits
      split at h
      · contradiction
      · next ds r hne heq =>
        rw [heq] at hall
        obtain ⟨rfl, -⟩ := Prod.mk.inj (Option.some.inj h)
        have hrun : IsRun ds := ⟨hne, hall⟩
        have hcase : sign = '-' ∨ sign = '+' := by
          split at hsign
          · exact Or.inl (Prod.mk.inj hsign).1.symm
          · exact Or.inr (Prod.mk.inj hsign).1.symm
          · exact Or.inr (Prod.mk.inj hsign).1.symm
        rcases hcase with rfl | rfl
        · exact ⟨some (true, ds), by simpa using hrun, rfl⟩
        · exact ⟨some (false, ds), by simpa using hrun, rfl⟩
    · obtain ⟨rfl, -⟩ := Prod.mk.inj (Option.some.inj h)
      exact ⟨none, by simp, rfl⟩
  · obtain ⟨rfl, -⟩ := Prod.mk.inj (Option.some.inj h)
    exact ⟨none, by simp, rfl⟩

theorem exponent_part_complete {e : Option (Bool × List Char)} (he : ∀ x ∈ e, IsRun x.2)
    (hrest : rest.head?.any (fun c => isDigit c || c == 'e' || c == 'E') = false) :
    exponentPart (exponentChars e ++ rest) = some (exponentChars e, rest) := by
  cases e with
  | none =>
    cases rest with
    | nil => rfl
    | cons c rest =>
      have hc : ¬ (c = 'e' ∨ c = 'E') := by
        rintro (rfl | rfl)
        all_goals simp at hrest
      simp only [exponentChars, List.nil_append, exponentPart, if_neg hc]
  | some x =>
    obtain ⟨negative, ds⟩ := x
    have hrun : IsRun ds := he _ rfl
    have hdigit : rest.head?.any isDigit = false := by
      cases rest <;> simp_all
    have hspan := span_digits_run hrun.2 hdigit
    cases ds with
    | nil => exact absurd rfl hrun.1
    | cons d ds =>
      cases negative
      all_goals
        simp only [exponentChars, exponentPart, List.cons_append, true_or, if_true] at hspan ⊢
        simp [hspan]

def goesOn (c : Char) : Bool := isDigit c || c == '.' || c == 'e' || c == 'E'

theorem number_text_sound (h : numberText cs = some (t, rest)) : ∃ n : Numeral, n.chars = t := by
  unfold numberText at h
  split at h
  next sign cs' hsign =>
  simp only [bind, Option.bind_eq_some_iff, Prod.exists, pure, Option.some.injEq, Prod.mk.injEq] at h
  obtain ⟨whole, r₁, hw, fraction, r₂, hf, exponent, r₃, he, rfl, -⟩ := h
  obtain ⟨hrun, hlead⟩ := whole_part_sound hw
  obtain ⟨ds, hds, rfl⟩ := fraction_part_sound hf
  obtain ⟨e, hrun', rfl⟩ := exponent_part_sound he
  have hcase : ∃ negative, sign = signChars negative := by
    split at hsign
    · exact ⟨true, (Prod.mk.inj hsign).1.symm⟩
    · exact ⟨false, (Prod.mk.inj hsign).1.symm⟩
  obtain ⟨negative, rfl⟩ := hcase
  exact ⟨⟨negative, whole, ds, e, hrun, hlead, hds, hrun'⟩, rfl⟩

theorem number_text_complete (n : Numeral) (hrest : rest.head?.any goesOn = false) :
    numberText (n.chars ++ rest) = some (n.chars, rest) := by
  have hexp : exponentPart (exponentChars n.exponent ++ rest) =
      some (exponentChars n.exponent, rest) := by
    refine exponent_part_complete n.exponent_run ?_
    cases rest <;> simp_all [goesOn]
  have hfrac : fractionPart (fractionChars n.fraction ++ (exponentChars n.exponent ++ rest)) =
      some (fractionChars n.fraction, exponentChars n.exponent ++ rest) := by
    refine fraction_part_complete n.fraction_all ?_
    cases n.exponent with
    | none => cases rest <;> simp_all [goesOn, exponentChars]
    | some e => rfl
  have hwhole : wholePart (n.whole ++ (fractionChars n.fraction ++ (exponentChars n.exponent ++ rest))) =
      some (n.whole, fractionChars n.fraction ++ (exponentChars n.exponent ++ rest)) := by
    refine whole_part_complete n.whole_run n.whole_lead ?_
    cases n.fraction with
    | nil =>
      cases n.exponent with
      | none => cases rest <;> simp_all [goesOn, exponentChars, fractionChars]
      | some e => rfl
    | cons d ds => rfl
  obtain ⟨c, cs, hc, hdigit⟩ : ∃ c cs, n.whole = c :: cs ∧ isDigit c = true := by
    have hrun := n.whole_run
    cases hw : n.whole with
    | nil => exact absurd hw hrun.1
    | cons c cs =>
      have hall := hrun.2
      rw [hw, List.all_cons, Bool.and_eq_true] at hall
      exact ⟨c, cs, rfl, hall.1⟩
  have hsign : c ≠ '-' := (not_is_digit_sign hdigit).1
  unfold numberText Numeral.chars
  cases n.negative with
  | true => simp [signChars, hwhole, hfrac, hexp]
  | false =>
    simp only [signChars, Bool.false_eq_true, if_false, List.nil_append, List.append_assoc]
    split
    · next h =>
      rw [hc, List.cons_append] at h
      exact absurd (List.cons.inj h).1 hsign
    · simp [hwhole, hfrac, hexp]

end TypedRecords.Json
