import TypedRecords.Proofs.DataType.Lattice
/-!
# The order of plain types

A type is within another when merging the two leaves the other. What is above a type says which types a value
of the smaller one may have to be read as.
-/

namespace TypedRecords.DataType

def Within (a b : DataType) : Prop := merge a b = b

variable {a b c : DataType}

theorem within_refl (a : DataType) : Within a a := merge_self a

theorem within_trans (ha : a.Plain) (hb : b.Plain) (hc : c.Plain) (hab : Within a b) (hbc : Within b c) :
    Within a c := by
  unfold Within at *
  rw [← hbc, ← merge_assoc ha hb hc, hab]

theorem within_merge_left (ha : a.Plain) (hb : b.Plain) : Within a (merge a b) := by
  unfold Within
  rw [← merge_assoc ha ha hb, merge_self]

theorem within_merge_right (ha : a.Plain) (hb : b.Plain) : Within b (merge a b) := by
  rw [merge_comm ha hb]
  exact within_merge_left hb ha

theorem Within.ne_null (h : Within a b) (ha : a ≠ .null) : b ≠ .null := by
  rintro rfl
  exact ha ((merge_null a).symm.trans h)

theorem Within.family (h : Within a b) (ha : a.Plain) (hb : b.Plain) (han : a ≠ .null) :
    b = .string ∨ b.family = a.family := by
  have hfam := family_merge ha hb han (h.ne_null han)
  rw [h] at hfam
  split at hfam
  · exact Or.inr hfam
  · exact Or.inl (string_of_family hfam)

theorem Within.array {e e' : DataType} {n n' : Bool} (h : Within (.array e n) (.array e' n')) :
    Within e e' := by
  unfold Within at h
  rw [merge_array] at h
  exact (DataType.array.inj h).1

theorem within_array (h : Within (.array a true) b) (ha : a.Plain) (hb : b.Plain) :
    b = .string ∨ ∃ e n, b = .array e n ∧ Within a e := by
  refine (h.family (plain_array.mpr ha) hb (by simp)).imp_right fun hf => ?_
  cases b <;> simp [DataType.family] at hf
  exact ⟨_, _, rfl, h.array⟩

theorem Within.field {fs gs : List Field} {name : String} {t : DataType}
    (h : Within (.struct fs) (.struct gs)) (hf : Regular fs) (hg : Regular gs)
    (ht : fieldType? name fs = some t) : ∃ u, fieldType? name gs = some u ∧ Within t u := by
  unfold Within at h
  rw [merge_struct_regular hf hg] at h
  have hlookup : fieldType? name (mergeFields merge fs gs) =
      Option.merge merge (fieldType? name fs) (fieldType? name gs) := merge_fields_type hf hg name
  rw [DataType.struct.inj h, ht] at hlookup
  cases hu : fieldType? name gs with
  | none =>
    rw [hu] at hlookup
    simp at hlookup
  | some u =>
    rw [hu, Option.merge_some_some, Option.some.injEq] at hlookup
    exact ⟨u, rfl, hlookup.symm⟩

theorem within_struct {fs : List Field} (h : Within (.struct fs) b) (hf : Plain (.struct fs))
    (hb : b.Plain) : b = .string ∨ ∃ gs, b = .struct gs := by
  refine (h.family hf hb (by simp)).imp_right fun hfam => ?_
  cases b <;> simp [DataType.family] at hfam
  exact ⟨_, rfl⟩

theorem within_boolean (h : Within .boolean b) (hb : b.Plain) : b = .string ∨ b = .boolean := by
  refine (h.family trivial hb (by simp)).imp_right fun hf => ?_
  cases b <;> simp_all [DataType.family]

theorem within_date (h : Within .date b) (hb : b.Plain) :
    b = .string ∨ b = .date ∨ b = .timestamp := by
  refine (h.family trivial hb (by simp)).imp_right fun hf => ?_
  cases b <;> simp_all [DataType.family]

theorem within_timestamp (h : Within .timestamp b) (hb : b.Plain) : b = .string ∨ b = .timestamp := by
  refine (h.family trivial hb (by simp)).imp_right fun hf => ?_
  cases b <;> simp [DataType.family] at hf
  · contradiction
  · rfl

theorem within_string (h : Within .string b) (hb : b.Plain) : b = .string := by
  unfold Within at h
  rw [← h, string_merge hb]

theorem within_number (h : Within a b) (ha : a.Plain) (hb : b.Plain) (hn : a.isNumber = true)
    (hf : a ≠ .float) : b = .string ∨ b = ofSpan (a.span ⊔ b.span) := by
  have hfam := (number_iff_family a).mp hn
  refine (h.family ha hb fun he => by simp [he, DataType.family] at hfam).imp_right fun hbf => ?_
  have hbn : b.isNumber = true := (number_iff_family b).mpr (hbf.trans hfam)
  exact h.symm.trans (merge_numbers hn hbn ha.decimal_valid fun hff => hf hff.1)

theorem of_span_cases (x : Span) : (ofSpan x = .double ∨ ofSpan x = .decimal (x.1 + x.2.1) x.2.1) ∨
    x.2.2 = false ∧ x.1 + x.2.1 ≤ maxPrecision ∧ ofSpan x = integralOf x.1 := by
  unfold ofSpan
  split
  · exact Or.inl (Or.inl rfl)
  · split
    · exact Or.inl (Or.inr rfl)
    · next h hx => exact Or.inr ⟨by simpa using hx, Nat.not_lt.mp h, rfl⟩

theorem within_double (h : Within .double b) (hb : b.Plain) : b = .string ∨ b = .double := by
  refine (within_number h trivial hb rfl (by simp)).imp_right fun hspan => ?_
  rw [hspan, of_span_sup_of_lt _ (span_of_floating rfl)]

theorem within_decimal {p s : Nat} (h : Within (.decimal p s) b) (ha : Plain (.decimal p s))
    (hb : b.Plain) : b = .string ∨ b = .double ∨
      ∃ p' s', b = .decimal p' s' ∧ p - s ≤ p' - s' ∧ s ≤ s' := by
  refine (within_number h ha hb rfl (by simp)).imp_right fun hspan => ?_
  rcases of_span_cases (span (.decimal p s) ⊔ b.span) with (hd | hd) | ⟨hd, -, -⟩
  · exact Or.inl (hspan.trans hd)
  · refine Or.inr ⟨_, _, hspan.trans hd, ?_, le_sup_left⟩
    rw [Nat.add_sub_cancel]
    exact le_sup_left
  · exact absurd hd (by simp [span])

theorem within_long (h : Within .long b) (hb : b.Plain) : b = .string ∨ b = .double ∨ b = .long ∨
    ∃ p s, b = .decimal p s ∧ 20 ≤ p - s := by
  refine (within_number h trivial hb rfl (by simp)).imp_right fun hspan => ?_
  rcases of_span_cases (span .long ⊔ b.span) with (hd | hd) | ⟨-, -, hd⟩
  · exact Or.inl (hspan.trans hd)
  · refine Or.inr (Or.inr ⟨_, _, hspan.trans hd, ?_⟩)
    rw [Nat.add_sub_cancel]
    exact le_sup_left
  · have hle : 20 ≤ (span .long ⊔ b.span).1 := le_sup_left
    refine Or.inr (Or.inl ((hspan.trans hd).trans ?_))
    unfold integralOf
    rw [if_neg (by omega), if_neg (by omega), if_neg (by omega)]

end TypedRecords.DataType
