import TypedRecords.Floating.Layout
import TypedRecords.Floating.Reader
import TypedRecords.Proofs.Floating.Shortest
import TypedRecords.Proofs.Json.Numeral
/-!
# Floating point texts read back

Each layout writes a numeral that means the shortest form, so the text of a finite value is read as that value.
-/

namespace TypedRecords

open Text (isDigit digitsOf digitsValue)

namespace Json.Numeral

def exponentValue (n : Numeral) : Int :=
  match n.exponent with
  | none => 0
  | some (negative, ds) => if negative then -(digitsValue ds : Int) else digitsValue ds

def form (n : Numeral) : DecimalForm :=
  ⟨digitsValue (n.whole ++ n.fraction), n.exponentValue - n.fraction.length⟩

end Json.Numeral

namespace Floating

open Json (Numeral IsRun)
open Json.Numeral (signChars fractionChars exponentChars)

variable {f : Format} {x : Floating f} {ds rest : List Char}

theorem exponent_field_numeral (n : Numeral) : exponentField (exponentChars n.exponent) = some n.exponentValue := by
  have hrun := n.exponent_run
  unfold Numeral.exponentValue
  cases hexp : n.exponent with
  | none => rfl
  | some e =>
    obtain ⟨negative, ds⟩ := e
    obtain ⟨hne, hall⟩ := hrun _ hexp
    have hnat := Text.nat_of_digits_some hne hall
    rw [exponentChars, exponentField, if_pos (Or.inl rfl)]
    cases negative
    · rw [if_neg (by simp), Text.signedOfDigits?, hnat]
      rfl
    · rw [if_pos rfl, Text.signedOfDigits?, hnat]
      rfl

theorem point_field_numeral (hall : ds.all isDigit = true)
    (hrest : rest.head?.any (fun c => isDigit c || c == '.') = false) :
    pointField (fractionChars ds ++ rest) = (ds, rest) := by
  cases ds with
  | nil =>
    rw [fractionChars, List.isEmpty_nil, if_pos rfl, List.nil_append]
    unfold pointField
    split
    · simp at hrest
    · rfl
  | cons d ds =>
    have hdigit : rest.head?.any isDigit = false := by
      cases rest <;> simp_all
    exact Text.span_digits_run hall hdigit

theorem unsigned_numeral (negative : Bool) (n : Numeral) :
    (unsigned? negative (n.whole ++ (fractionChars n.fraction ++ exponentChars n.exponent)) : Option (Floating f)) =
      some (ofDecimal negative n.form.significand n.form.exponent) := by
  have hexp : (exponentChars n.exponent).head?.any (fun c => isDigit c || c == '.') = false := by
    cases n.exponent <;> rfl
  have hrest : (fractionChars n.fraction ++ exponentChars n.exponent).head?.any isDigit = false := by
    cases n.fraction with
    | nil => cases n.exponent <;> rfl
    | cons d ds => rfl
  have hne : n.whole.isEmpty = false := by
    have := n.whole_run.1
    simpa using this
  rw [unsigned?, Text.span_digits_run n.whole_run.2 hrest]
  simp only [point_field_numeral n.fraction_all hexp, hne, Bool.false_and, exponent_field_numeral]
  rfl

theorem number_numeral (n : Numeral) :
    (number? n.chars : Option (Floating f)) =
      some (ofDecimal n.negative n.form.significand n.form.exponent) := by
  have hread := unsigned_numeral (f := f) n.negative n
  unfold Numeral.chars
  rw [List.append_assoc, List.append_assoc]
  cases hneg : n.negative with
  | true =>
    rw [hneg] at hread
    exact hread
  | false =>
    rw [hneg] at hread
    obtain ⟨hne, hall⟩ := n.whole_run
    rw [signChars, if_neg (by simp), List.nil_append]
    cases hw : n.whole with
    | nil => exact absurd hw hne
    | cons c cs =>
      rw [hw, List.all_cons, Bool.and_eq_true] at hall
      have hsign := Text.not_is_digit_sign hall.1
      rw [hw] at hread
      rw [List.cons_append] at hread ⊢
      unfold number?
      split
      · next heq => exact absurd (List.cons.inj heq).1 hsign.1
      · next heq => exact absurd (List.cons.inj heq).1 hsign.2
      · exact hread

end Floating

namespace Layout

open Floating (decimalMagnitude)
open Json (Numeral IsRun)
open Json.Numeral (signChars fractionChars exponentChars)

variable {l : Layout} {negative : Bool} {digits : List Char} {exponent : Int}

structure Spells (n : Numeral) (negative : Bool) (text : List Char) (d : DecimalForm) : Prop where
  chars : n.chars = signChars negative ++ text
  sign : n.negative = negative
  value : ∀ f, decimalMagnitude f n.form.significand n.form.exponent = decimalMagnitude f d.significand d.exponent

theorem Spells.of_magnitude {n : Numeral} {text : List Char} {d d' : DecimalForm} (h : Spells n negative text d)
    (hd : ∀ f, decimalMagnitude f d.significand d.exponent = decimalMagnitude f d'.significand d'.exponent) :
    Spells n negative text d' :=
  ⟨h.chars, h.sign, fun f => (h.value f).trans (hd f)⟩

/-- Digits to be laid out: at least one, and no zero in front. -/
structure Leading (digits : List Char) : Prop where
  run : IsRun digits
  head : digits.head? ≠ some '0'

theorem Leading.append (h : Leading digits) (ds : List Char) : (digits ++ ds).head? ≠ some '0' := by
  have hne := h.run.1
  have hhead := h.head
  cases digits with
  | nil => exact absurd rfl hne
  | cons c cs => exact hhead

theorem whole_spells (l : Layout) (negative : Bool) (h : Leading digits) (zeros : Nat) :
    ∃ n, Spells n negative (digits ++ List.replicate zeros '0' ++ if l.keepPoint then ['.', '0'] else [])
      ⟨digitsValue digits, zeros⟩ := by
  obtain ⟨hne, hall⟩ := h.run
  have hrun : IsRun (digits ++ List.replicate zeros '0') := by
    refine ⟨by simp [hne], ?_⟩
    rw [List.all_append, hall, Text.zeros_all]
    rfl
  have hlead : (digits ++ List.replicate zeros '0').head? = some '0' →
      digits ++ List.replicate zeros '0' = ['0'] := fun hzero => absurd hzero (h.append _)
  have hvalue : digitsValue (digits ++ List.replicate zeros '0') = digitsValue digits * 10 ^ zeros :=
    Text.digits_value_append_zeros _ _
  cases l.keepPoint with
  | true =>
    refine ⟨⟨negative, digits ++ List.replicate zeros '0', ['0'], none, hrun, hlead, rfl, by simp⟩, ?_, rfl, ?_⟩
    · simp [Numeral.chars, fractionChars, exponentChars]
    · intro f
      have hshift := Floating.decimal_magnitude_shift (f := f) (digitsValue digits) (zeros + 1) (-1)
      have hexp : -1 + ((zeros + 1 : Nat) : Int) = zeros := by omega
      have htail : digitsValue (digits ++ List.replicate zeros '0' ++ ['0']) =
          digitsValue digits * 10 ^ (zeros + 1) := by
        rw [← Text.digits_value_append_zeros, List.append_assoc, ← List.replicate_succ']
      rw [hexp] at hshift
      simp only [Numeral.form, Numeral.exponentValue, htail]
      exact hshift
  | false =>
    refine ⟨⟨negative, digits ++ List.replicate zeros '0', [], none, hrun, hlead, rfl, by simp⟩, ?_, rfl, ?_⟩
    · simp [Numeral.chars, fractionChars, exponentChars]
    · intro f
      have hshift := Floating.decimal_magnitude_shift (f := f) (digitsValue digits) zeros 0
      rw [Int.zero_add] at hshift
      simp only [Numeral.form, Numeral.exponentValue, List.append_nil, hvalue]
      exact hshift

theorem inner_spells (negative : Bool) (h : Leading digits) {places : Nat} (hpos : 0 < places)
    (hlt : places < digits.length) :
    ∃ n, Spells n negative (digits.take (digits.length - places) ++ '.' :: digits.drop (digits.length - places))
      ⟨digitsValue digits, -(places : Int)⟩ := by
  obtain ⟨n, hchars, hsign, hexp, hdigits, hcount⟩ :=
    Json.split_numeral negative h.run.2 hlt fun hzero => absurd hzero h.head
  rw [if_neg (Nat.ne_of_gt hpos)] at hchars
  refine ⟨n, hchars, hsign, fun f => ?_⟩
  simp only [Numeral.form, Numeral.exponentValue, hexp, hdigits, hcount, Int.zero_sub]

theorem small_spells (negative : Bool) (h : Leading digits) {places : Nat} (hge : digits.length ≤ places) :
    ∃ n, Spells n negative ('0' :: '.' :: (List.replicate (places - digits.length) '0' ++ digits))
      ⟨digitsValue digits, -(places : Int)⟩ := by
  obtain ⟨hne, hall⟩ := h.run
  have hfraction : (List.replicate (places - digits.length) '0' ++ digits).all isDigit = true := by
    rw [List.all_append, Text.zeros_all, hall]
    rfl
  have hlength : (List.replicate (places - digits.length) '0' ++ digits).length = places := by
    rw [List.length_append, List.length_replicate]
    omega
  have hvalue : digitsValue ('0' :: (List.replicate (places - digits.length) '0' ++ digits)) =
      digitsValue digits := Text.digits_value_zeros (places - digits.length + 1) digits
  refine ⟨⟨negative, ['0'], _, none, by decide, fun _ => rfl, hfraction, by simp⟩, ?_, rfl, ?_⟩
  · simp [Numeral.chars, fractionChars, exponentChars, hne]
  · intro f
    simp only [Numeral.form, Numeral.exponentValue, List.singleton_append, hvalue, hlength, Int.zero_sub]

theorem plain_spells (l : Layout) (negative : Bool) (h : Leading digits) (exponent : Int) :
    ∃ n, Spells n negative (l.plainText digits exponent) ⟨digitsValue digits, exponent⟩ := by
  unfold plainText
  split
  · next zeros => exact whole_spells l negative h zeros
  · next n =>
    dsimp only
    split
    · next hlt => exact inner_spells negative h (Nat.succ_pos n) hlt
    · next hge => exact small_spells negative h (Nat.le_of_not_lt hge)

theorem scientific_spells (negative : Bool) (h : Leading digits) (exponent : Int) :
    ∃ n, Spells n negative (scientificText digits (exponent + digits.length - 1)) ⟨digitsValue digits, exponent⟩ := by
  obtain ⟨hne, hall⟩ := h.run
  have hhead := h.head
  cases digits with
  | nil => exact absurd rfl hne
  | cons c cs =>
    rw [List.all_cons, Bool.and_eq_true] at hall
    have hlead : ([c].head? = some '0' → [c] = ['0']) := fun hzero => absurd hzero hhead
    have hleading : exponent + (c :: cs).length - 1 = exponent + cs.length := by
      rw [List.length_cons]
      omega
    rw [hleading]
    generalize hl : exponent + (cs.length : Int) = leading
    have hrun : IsRun (digitsOf leading.natAbs) := ⟨Text.digits_of_ne_nil _, Text.digits_of_all _⟩
    refine ⟨⟨negative, [c], cs, some (decide (leading < 0), digitsOf leading.natAbs), ⟨by simp, by simp [hall.1]⟩,
      hlead, hall.2, by simpa using hrun⟩, ?_, rfl, ?_⟩
    · cases cs <;> simp [Numeral.chars, scientificText, fractionChars, exponentChars]
    · intro f
      have hexp : leading - (cs.length : Int) = exponent := by omega
      simp only [Numeral.form, Numeral.exponentValue, Text.digits_value_digits_of, Text.signed_nat_abs, hexp,
        List.singleton_append]

theorem strip_zeros (all : List Char) :
    (all.reverse.dropWhile (· == '0')).reverse ++
      List.replicate (all.length - (all.reverse.dropWhile (· == '0')).reverse.length) '0' = all := by
  have hsplit := List.takeWhile_append_dropWhile (p := (· == '0')) (l := all.reverse)
  have hzeros : all.reverse.takeWhile (· == '0') =
      List.replicate (all.reverse.takeWhile (· == '0')).length '0' := by
    rw [List.eq_replicate_iff]
    exact ⟨rfl, fun c hc => by simpa using List.all_eq_true.mp (List.all_takeWhile ..) c hc⟩
  have hlength := congrArg List.length hsplit
  rw [List.length_append, List.length_reverse] at hlength
  have hcount : all.length - (all.reverse.dropWhile (· == '0')).reverse.length =
      (all.reverse.takeWhile (· == '0')).length := by
    rw [List.length_reverse]
    omega
  have hrev := congrArg List.reverse hsplit
  rw [List.reverse_append, List.reverse_reverse, hzeros, List.reverse_replicate] at hrev
  rw [hcount]
  exact hrev

theorem zero_spells (l : Layout) (negative : Bool) (exponent : Int) :
    ∃ n, Spells n negative (l.plainText ['0'] 0) ⟨0, exponent⟩ := by
  have hzero (f : Format) (e : Int) : decimalMagnitude f 0 e = decimalMagnitude f 0 exponent := by
    rw [Floating.decimal_magnitude_zero, Floating.decimal_magnitude_zero]
  unfold plainText
  cases l.keepPoint with
  | true =>
    refine ⟨⟨negative, ['0'], ['0'], none, by decide, fun _ => rfl, rfl, by simp⟩, ?_, rfl, fun f => hzero f _⟩
    simp [Numeral.chars, fractionChars, exponentChars]
  | false =>
    refine ⟨⟨negative, ['0'], [], none, by decide, fun _ => rfl, rfl, by simp⟩, ?_, rfl, fun f => hzero f _⟩
    simp [Numeral.chars, fractionChars, exponentChars]

theorem stripped_digits {n : Nat} (hn : 0 < n) :
    Leading ((digitsOf n).reverse.dropWhile (· == '0')).reverse ∧
      digitsValue ((digitsOf n).reverse.dropWhile (· == '0')).reverse *
        10 ^ ((digitsOf n).length - ((digitsOf n).reverse.dropWhile (· == '0')).reverse.length) = n := by
  have hstrip := strip_zeros (digitsOf n)
  have hhead := Text.digits_of_head hn
  have hall := Text.digits_of_all n
  generalize ((digitsOf n).reverse.dropWhile (· == '0')).reverse = kept at hstrip ⊢
  generalize (digitsOf n).length - kept.length = zeros at hstrip ⊢
  have hvalue : digitsValue kept * 10 ^ zeros = n := by
    rw [← Text.digits_value_append_zeros, hstrip, Text.digits_value_digits_of]
  rw [← hstrip, List.all_append, Bool.and_eq_true] at hall
  rw [← hstrip] at hhead
  refine ⟨⟨⟨?_, hall.1⟩, ?_⟩, hvalue⟩
  · rintro rfl
    rw [← hvalue] at hn
    exact absurd (Nat.zero_mul _) (Nat.ne_of_gt hn)
  · intro hlead
    cases kept with
    | nil => contradiction
    | cons c cs => exact hhead hlead

theorem form_spells (l : Layout) (negative : Bool) (d : DecimalForm) :
    ∃ n, Spells n negative (l.formText d) d := by
  by_cases hzero : d.significand = 0
  · have htext : l.formText d = l.plainText ['0'] 0 := by
      simp [formText, hzero]
    obtain ⟨n, hn⟩ := zero_spells l negative d.exponent
    rw [htext]
    refine ⟨n, hn.of_magnitude fun f => ?_⟩
    rw [hzero]
  obtain ⟨hleading, hvalue⟩ := stripped_digits (Nat.pos_of_ne_zero hzero)
  unfold formText
  dsimp only
  generalize ((digitsOf d.significand).reverse.dropWhile (· == '0')).reverse = digits at hleading hvalue ⊢
  generalize (digitsOf d.significand).length - digits.length = zeros at hvalue ⊢
  have hspells {text : List Char} (h : ∃ n, Spells n negative text ⟨digitsValue digits, d.exponent + zeros⟩) :
      ∃ n, Spells n negative text d := by
    obtain ⟨n, hn⟩ := h
    refine ⟨n, hn.of_magnitude fun f => ?_⟩
    rw [← Floating.decimal_magnitude_shift, hvalue]
  have hempty : digits.isEmpty = false := by simpa using hleading.run.1
  rw [hempty, if_neg (by simp)]
  split
  · exact hspells (plain_spells l negative hleading _)
  · exact hspells (scientific_spells negative hleading _)

end Layout

namespace Floating

open Json (Numeral)

variable {f : Format} {x : Floating f}

theorem finite_text_numeral (l : Layout) (x : Floating f) :
    ∃ n : Numeral, n.chars = x.finiteText l ∧ ∀ g, (number? n.chars : Option (Floating g)) =
      some (ofDecimal x.isNegative (x.shortest l.tie).significand (x.shortest l.tie).exponent) := by
  obtain ⟨n, hn⟩ := l.form_spells x.isNegative (x.shortest l.tie)
  refine ⟨n, hn.chars, fun g => ?_⟩
  rw [number_numeral, hn.sign, of_decimal_pack, of_decimal_pack, hn.value]

theorem number_finite_text (hf : f.Proper) (l : Layout) (hx : x.isFinite = true) :
    number? (x.finiteText l) = some x := by
  obtain ⟨n, hchars, hread⟩ := finite_text_numeral l x
  rw [← hchars, hread f, of_decimal_shortest hf l.tie hx]

end Floating

end TypedRecords
