import Mathlib.Order.Lattice
import Mathlib.Order.BoundedOrder.Lattice
import TypedRecords.Proofs.DataType.Merge
/-!
# Merging number types

A number type has a span: its digits before the point, its digits after the point and whether it is written
as a decimal. Merging takes the larger of each, and gives `double` once the digits pass the largest
precision. The binary floating point types have a span that passes it already.
-/

namespace TypedRecords.DataType

abbrev Span := ℕ × ℕ × Bool

def isNumber (t : DataType) : Bool :=
  t.isPrimitiveNumeric || match t with
    | .decimal _ _ => true
    | _ => false

def span : DataType → Span
  | .byte => (3, 0, false)
  | .short => (5, 0, false)
  | .integer => (10, 0, false)
  | .long => (20, 0, false)
  | .decimal p s => (p - s, s, true)
  | _ => (maxPrecision + 1, 0, true)

def integralOf (digits : Nat) : DataType :=
  if digits = 3 then .byte
  else if digits = 5 then .short
  else if digits = 10 then .integer
  else .long

def ofSpan (x : Span) : DataType :=
  if maxPrecision < x.1 + x.2.1 then .double
  else if x.2.2 then .decimal (x.1 + x.2.1) x.2.1
  else integralOf x.1

/-- A span that is not written as a decimal is that of an integral type. -/
def Span.Sound (x : Span) : Prop :=
  x.2.2 = false → x.2.1 = 0 ∧ (x.1 = 3 ∨ x.1 = 5 ∨ x.1 = 10 ∨ x.1 = 20)

theorem Span.Sound.sup {x y : Span} (hx : x.Sound) (hy : y.Sound) : Span.Sound (x ⊔ y) := by
  obtain ⟨r, s, b⟩ := x
  obtain ⟨r', s', b'⟩ := y
  intro hb
  have hor : (b || b') = false := hb
  rw [Bool.or_eq_false_iff] at hor
  obtain ⟨hs, hr⟩ := hx hor.1
  obtain ⟨hs', hr'⟩ := hy hor.2
  change max s s' = 0 ∧ (max r r' = 3 ∨ max r r' = 5 ∨ max r r' = 10 ∨ max r r' = 20)
  dsimp only at hs hr hs' hr'
  omega

theorem span_sound (t : DataType) : t.span.Sound := by
  cases t <;> simp [Span.Sound, span]

theorem span_of_span {x : Span} (hx : x.Sound) (h : x.1 + x.2.1 ≤ maxPrecision) :
    (ofSpan x).span = x := by
  obtain ⟨r, s, b⟩ := x
  rw [ofSpan, if_neg (Nat.not_lt.mpr h)]
  cases b with
  | true => simp [span]
  | false =>
    obtain ⟨hs, hr⟩ := hx rfl
    dsimp only at hs hr
    rcases hr with rfl | rfl | rfl | rfl <;> simp [hs, integralOf, span]

theorem of_span_ne_float (x : Span) : ofSpan x ≠ .float := by
  unfold ofSpan integralOf
  repeat' split
  all_goals simp

/-- A span that passes the largest precision still does after merging. -/
theorem of_span_sup_of_lt {x : Span} (y : Span) (h : maxPrecision < x.1 + x.2.1) :
    ofSpan (x ⊔ y) = .double := by
  have hfst : x.1 ≤ (x ⊔ y).1 := le_max_left _ _
  have hsnd : x.2.1 ≤ (x ⊔ y).2.1 := le_max_left _ _
  exact if_pos (by omega)

theorem of_span_span_sup {x : Span} (hx : x.Sound) (y : Span) :
    ofSpan ((ofSpan x).span ⊔ y) = ofSpan (x ⊔ y) := by
  by_cases h : maxPrecision < x.1 + x.2.1
  · have hdouble : ofSpan x = .double := if_pos h
    rw [of_span_sup_of_lt y h, hdouble]
    exact of_span_sup_of_lt y (Nat.lt_succ_self _)
  · rw [span_of_span hx (Nat.not_lt.mp h)]

theorem merge_decimals_span (p s p' s' : Nat) :
    mergeDecimals p s p' s' = ofSpan ((p - s, s, true) ⊔ (p' - s', s', true)) := by
  simp only [mergeDecimals, ofSpan, Prod.mk_sup_mk, Bool.max_eq_or, Bool.or_self, ← not_lt, ite_not, if_true]

def DecimalValid : DataType → Prop
  | .decimal p s => s ≤ p ∧ p ≤ maxPrecision
  | _ => True

theorem of_span_self {t : DataType} (hn : t.isNumber = true) (hf : t ≠ .float)
    (hv : t.DecimalValid) : ofSpan t.span = t := by
  cases t <;> simp_all [isNumber, isPrimitiveNumeric, isIntegral, isFloating, integralRank?, span, ofSpan,
    integralOf, maxPrecision, DecimalValid]

theorem span_of_floating {t : DataType} (h : t.isFloating = true) : maxPrecision < t.span.1 + t.span.2.1 := by
  cases t <;> simp_all [isFloating, span]

theorem merge_scalars_primitive {a b : DataType} (ha : a.isPrimitiveNumeric = true)
    (hb : b.isPrimitiveNumeric = true) (hne : a ≠ b) :
    mergeScalars a b = ofSpan (a.span ⊔ b.span) := by
  cases a <;> simp only [isPrimitiveNumeric, isIntegral, isFloating, integralRank?, Option.isSome,
    Bool.or_self, Bool.false_eq_true] at ha
  all_goals
    cases b <;> simp only [isPrimitiveNumeric, isIntegral, isFloating, integralRank?, Option.isSome,
      Bool.or_self, Bool.false_eq_true, ne_eq, not_true_eq_false] at hb hne
  all_goals rfl

theorem merge_scalars_decimal (p s : Nat) {t : DataType} (h : t.isPrimitiveNumeric = true) :
    mergeScalars (.decimal p s) t = ofSpan ((p - s, s, true) ⊔ t.span) := by
  by_cases hf : t.isFloating = true
  · have hdouble : mergeScalars (.decimal p s) t = .double := by
      cases t <;> simp [isFloating] at hf <;> rfl
    rw [hdouble, sup_comm, of_span_sup_of_lt _ (span_of_floating hf)]
  · have hdigits : ∃ digits, t.integralDigits? = some digits ∧ t.span = (digits, 0, false) ∧
        mergeScalars (.decimal p s) t = mergeDecimals p s digits 0 := by
      cases t <;> simp [isPrimitiveNumeric, isIntegral, integralRank?, isFloating] at h hf <;>
        exact ⟨_, rfl, rfl, rfl⟩
    obtain ⟨digits, -, hspan, hmerge⟩ := hdigits
    rw [hmerge, merge_decimals_span, hspan]
    rfl

theorem merge_scalars_decimal_right (p s : Nat) {t : DataType} (h : t.isPrimitiveNumeric = true) :
    mergeScalars t (.decimal p s) = mergeScalars (.decimal p s) t := by
  cases t <;> simp [isPrimitiveNumeric, isIntegral, integralRank?, isFloating] at h <;> rfl

theorem number_cases {t : DataType} (h : t.isNumber = true) :
    t.isPrimitiveNumeric = true ∨ ∃ p s, t = .decimal p s := by
  unfold isNumber at h
  rw [Bool.or_eq_true] at h
  rcases h with h | h
  · exact Or.inl h
  · cases t <;> simp_all

theorem merge_scalars_span {a b : DataType} (ha : a.isNumber = true) (hb : b.isNumber = true)
    (hne : a ≠ b) : mergeScalars a b = ofSpan (a.span ⊔ b.span) := by
  rcases number_cases ha with ha | ⟨p, s, rfl⟩
  · rcases number_cases hb with hb | ⟨p, s, rfl⟩
    · exact merge_scalars_primitive ha hb hne
    · rw [merge_scalars_decimal_right p s ha, merge_scalars_decimal p s ha, sup_comm]
      rfl
  · rcases number_cases hb with hb | ⟨p', s', rfl⟩
    · exact merge_scalars_decimal p s hb
    · exact merge_decimals_span p s p' s'

theorem merge_numbers_of_ne {a b : DataType} (ha : a.isNumber = true) (hb : b.isNumber = true)
    (hne : a ≠ b) : merge a b = ofSpan (a.span ⊔ b.span) := by
  rw [← merge_scalars_span ha hb hne, merge_unfold]
  unfold mergeStep
  rw [if_neg hne]
  rcases number_cases ha with ha | ⟨p, s, rfl⟩
  · cases a <;> simp [isPrimitiveNumeric, isIntegral, integralRank?, isFloating] at ha <;>
      cases b <;> simp [isNumber, isPrimitiveNumeric, isIntegral, integralRank?, isFloating] at hb <;> rfl
  · cases b <;> simp [isNumber, isPrimitiveNumeric, isIntegral, integralRank?, isFloating] at hb <;> rfl

/-- Two number types merge by their spans, `float` with itself apart. -/
theorem merge_numbers {a b : DataType} (ha : a.isNumber = true) (hb : b.isNumber = true)
    (hv : a.DecimalValid) (hf : ¬ (a = .float ∧ b = .float)) : merge a b = ofSpan (a.span ⊔ b.span) := by
  by_cases hab : a = b
  · subst hab
    rw [merge_self, sup_idem, of_span_self ha (fun h => hf ⟨h, h⟩) hv]
  · exact merge_numbers_of_ne ha hb hab

theorem of_span_number (x : Span) : (ofSpan x).isNumber = true := by
  unfold ofSpan integralOf
  repeat' split
  all_goals rfl

theorem of_span_decimal_valid (x : Span) : (ofSpan x).DecimalValid := by
  unfold ofSpan
  split
  · trivial
  · next h =>
    split
    · exact ⟨Nat.le_add_left _ _, Nat.not_lt.mp h⟩
    · unfold integralOf
      repeat' split
      all_goals trivial

theorem merge_numbers_comm {a b : DataType} (ha : a.isNumber = true) (hb : b.isNumber = true)
    (hva : a.DecimalValid) (hvb : b.DecimalValid) : merge a b = merge b a := by
  by_cases hf : a = .float ∧ b = .float
  · rw [hf.1, hf.2]
  · rw [merge_numbers ha hb hva hf, merge_numbers hb ha hvb (fun h => hf ⟨h.2, h.1⟩), sup_comm]

theorem merge_of_span {t : DataType} {x : Span} (hx : x.Sound) (ht : t.isNumber = true) :
    merge (ofSpan x) t = ofSpan (x ⊔ t.span) := by
  rw [merge_numbers (of_span_number x) ht (of_span_decimal_valid x)
    (fun h => of_span_ne_float x h.1), of_span_span_sup hx]

theorem merge_to_of_span {t : DataType} {x : Span} (hx : x.Sound) (ht : t.isNumber = true)
    (hv : t.DecimalValid) : merge t (ofSpan x) = ofSpan (t.span ⊔ x) := by
  rw [merge_numbers_comm ht (of_span_number x) hv (of_span_decimal_valid x), merge_of_span hx ht,
    sup_comm]

theorem merge_numbers_assoc {a b c : DataType} (ha : a.isNumber = true) (hb : b.isNumber = true)
    (hc : c.isNumber = true) (hva : a.DecimalValid) (hvb : b.DecimalValid) :
    merge (merge a b) c = merge a (merge b c) := by
  by_cases hab : a = .float ∧ b = .float
  · obtain ⟨rfl, rfl⟩ := hab
    by_cases hcf : c = .float
    · rw [hcf]
      simp
    · rw [merge_self, merge_numbers hb hc hvb (fun h => hcf h.2),
        merge_to_of_span ((span_sound _).sup (span_sound _)) ha hva, ← sup_assoc, sup_idem]
  · rw [merge_numbers ha hb hva hab, merge_of_span ((span_sound a).sup (span_sound b)) hc]
    by_cases hbc : b = .float ∧ c = .float
    · obtain ⟨rfl, rfl⟩ := hbc
      rw [merge_self, merge_numbers ha hb hva hab, sup_assoc, sup_idem]
    · rw [merge_numbers hb hc hvb hbc, merge_to_of_span ((span_sound b).sup (span_sound c)) ha hva,
        sup_assoc]

end TypedRecords.DataType
