import TypedRecords.Proofs.DataType.Plain
/-!
# How types merge

All that merging two types can come to, one rule for each way. An alias gives way to the type that it is stored as, and
other types merge within their family. What holds of merged types is proved along these rules.
-/

namespace TypedRecords.DataType

inductive MergesTo : DataType → DataType → DataType → Prop where
  | same (t) : MergesTo t t t
  | nullLeft (t) : MergesTo .null t t
  | nullRight (t) : MergesTo t .null t
  | storedLeft {name s b m} : .alias name s ≠ b → b ≠ .null → MergesTo s b m → MergesTo (.alias name s) b m
  | storedRight {a name s m} : a.family ≠ .named → a ≠ .null → MergesTo s a m → MergesTo a (.alias name s) m
  | number {a b} : a.isNumber = true → b.isNumber = true → a ≠ b →
      MergesTo a b (ofSpan (a.span ⊔ b.span))
  | dateTimestamp : MergesTo .date .timestamp .timestamp
  | timestampDate : MergesTo .timestamp .date .timestamp
  | array {e n e' n' m} : MergesTo e e' m → MergesTo (.array e n) (.array e' n') (.array m (n || n'))
  | map {v n v' n' m} : MergesTo v v' m → MergesTo (.map v n) (.map v' n') (.map m (n || n'))
  | struct {fs gs} : Regular fs → Regular gs →
      (∀ name x y, fieldType? name fs = some x → fieldType? name gs = some y → MergesTo x y (merge x y)) →
      MergesTo (.struct fs) (.struct gs) (.struct (mergeFields merge fs gs))
  | mixed {a b} : a.family ≠ .named → b.family ≠ .named → a ≠ .null → b ≠ .null → a.family ≠ b.family →
      MergesTo a b .string

variable {a b m : DataType} {name : String} {s : DataType}

/-- On the left an alias is unfolded. -/
theorem alias_merge (hne : .alias name s ≠ b) (hb : b ≠ .null) : merge (.alias name s) b = merge s b := by
  rw [merge_unfold]
  unfold mergeStep
  rw [if_neg hne]
  cases b <;> first | contradiction | rfl

/-- Beside a type that is no alias, an alias on the right is unfolded, and its storage goes to the left. -/
theorem merge_alias (ha : a.family ≠ .named) (han : a ≠ .null) : merge a (.alias name s) = merge s a := by
  have hne : a ≠ .alias name s := by
    rintro rfl
    exact ha rfl
  rw [merge_unfold]
  unfold mergeStep
  rw [if_neg hne]
  cases a <;> first | contradiction | rfl

theorem merge_family_ne (ha : a.family ≠ .named) (hb : b.family ≠ .named) (han : a ≠ .null) (hbn : b ≠ .null)
    (h : a.family ≠ b.family) : merge a b = .string := by
  have hne : a ≠ b := fun he => h (congrArg family he)
  rw [merge_unfold]
  unfold mergeStep
  rw [if_neg hne]
  cases a <;> first | contradiction | skip
  all_goals cases b <;> first | contradiction | rfl

theorem merges_to_family (ha : Orderly a) (hb : Orderly b) (hne : a ≠ b) (hnamed : a.family ≠ .named)
    (h : a.family = b.family)
    (ih : ∀ x y : DataType, x.size + y.size < a.size + b.size → Orderly x → Orderly y → MergesTo x y (merge x y)) :
    MergesTo a b (merge a b) := by
  cases hfam : a.family with
  | number =>
    have hna := (number_iff_family a).mpr hfam
    have hnb := (number_iff_family b).mpr (h ▸ hfam)
    rw [merge_numbers_of_ne hna hnb hne]
    exact .number hna hnb hne
  | temporal =>
    cases a <;> simp [family] at hfam <;> cases b <;> simp [family] at h <;> try contradiction
    · exact .dateTimestamp
    · exact .timestampDate
  | named => exact absurd hfam hnamed
  | array =>
    obtain ⟨e, n, rfl⟩ := array_of_family hfam
    obtain ⟨e', n', rfl⟩ := array_of_family h.symm
    rw [merge_array]
    exact .array (ih _ _ (by simp only [size]; omega) (orderly_array.mp ha) (orderly_array.mp hb))
  | map =>
    obtain ⟨v, n, rfl⟩ := map_of_family hfam
    obtain ⟨v', n', rfl⟩ := map_of_family h.symm
    rw [merge_map]
    exact .map (ih _ _ (by simp only [size]; omega) (orderly_map.mp ha) (orderly_map.mp hb))
  | struct =>
    obtain ⟨fs, rfl⟩ := struct_of_family hfam
    obtain ⟨gs, rfl⟩ := struct_of_family h.symm
    have hfs := (orderly_struct.mp ha).1
    have hgs := (orderly_struct.mp hb).1
    rw [merge_struct_regular hfs hgs]
    refine .struct hfs hgs ?_
    intro name x y hx hy
    have hxsize := field_type_size hx
    have hysize := field_type_size hy
    exact ih x y (by omega) (orderly_field ha hx) (orderly_field hb hy)
  | null | boolean | binary | string =>
    cases a <;> simp [family] at hfam
    cases b <;> simp_all [family]

theorem merges_to (ha : Orderly a) (hb : Orderly b) : MergesTo a b (merge a b) := by
  induction hn : a.size + b.size using Nat.strong_induction_on generalizing a b with
  | h n ih =>
    subst hn
    by_cases hab : a = b
    · rw [← hab, merge_self]
      exact .same a
    by_cases han : a = .null
    · rw [han, null_merge]
      exact .nullLeft b
    by_cases hbn : b = .null
    · rw [hbn, merge_null]
      exact .nullRight a
    by_cases hfa : a.family = .named
    · obtain ⟨name, s, rfl⟩ := alias_of_family hfa
      rw [alias_merge hab hbn]
      exact .storedLeft hab hbn (ih _ (by simp only [size]; omega) (orderly_alias.mp ha) hb rfl)
    by_cases hfb : b.family = .named
    · obtain ⟨name, s, rfl⟩ := alias_of_family hfb
      rw [merge_alias hfa han]
      exact .storedRight hfa han (ih _ (by simp only [size]; omega) (orderly_alias.mp hb) ha rfl)
    by_cases h : a.family = b.family
    · refine merges_to_family ha hb hab hfa h ?_
      intro x y hsize hx hy
      exact ih _ hsize hx hy rfl
    · rw [merge_family_ne hfa hfb han hbn h]
      exact .mixed hfa hfb han hbn h

theorem family_merge (ha : a.Plain) (hb : b.Plain) (han : a ≠ .null) (hbn : b ≠ .null) :
    (merge a b).family = if a.family = b.family then a.family else .string := by
  have h := merges_to ha.orderly hb.orderly
  generalize merge a b = m at h
  cases h with
  | same => simp
  | nullLeft => contradiction
  | nullRight => contradiction
  | storedLeft => exact absurd ha not_plain_alias
  | storedRight => exact absurd hb not_plain_alias
  | number hna hnb _ =>
    rw [(number_iff_family _).mp hna, (number_iff_family _).mp hnb]
    exact (number_iff_family _).mp (of_span_number _)
  | dateTimestamp | timestampDate | array | map | struct => rfl
  | mixed _ _ _ _ hne => rw [if_neg hne, family]

theorem merge_fields_mem {fs gs : List Field} (hfs : Regular fs) (hgs : Regular gs) {f : Field}
    (hf : f ∈ mergeFields merge fs gs) : fieldType? f.name fs = some f.type ∨ fieldType? f.name gs = some f.type ∨
      ∃ x y, fieldType? f.name fs = some x ∧ fieldType? f.name gs = some y ∧ merge x y = f.type := by
  have htype := merge_fields_regular.mem_type hf
  rw [merge_fields_type hfs hgs, Option.merge_eq_some_iff] at htype
  rcases htype with ⟨ht, -⟩ | ⟨-, ht⟩ | hboth
  · exact Or.inl ht
  · exact Or.inr (Or.inl ht)
  · exact Or.inr (Or.inr hboth)

theorem MergesTo.plain (h : MergesTo a b m) (ha : a.Plain) (hb : b.Plain) : m.Plain := by
  induction h with
  | same => exact ha
  | nullLeft => exact hb
  | nullRight => exact ha
  | storedLeft => exact absurd ha not_plain_alias
  | storedRight => exact absurd hb not_plain_alias
  | number => exact of_span_plain _
  | dateTimestamp | timestampDate | mixed => trivial
  | array _ ih => exact plain_array.mpr (ih (plain_array.mp ha) (plain_array.mp hb))
  | map _ ih => exact plain_map.mpr (ih (plain_map.mp ha) (plain_map.mp hb))
  | struct hfs hgs _ ih =>
    refine plain_struct.mpr ⟨merge_fields_regular, ?_⟩
    intro f hf
    rcases merge_fields_mem hfs hgs hf with ht | ht | ⟨x, y, hx, hy, hxy⟩
    · exact plain_field ha ht
    · exact plain_field hb ht
    · rw [← hxy]
      exact ih _ x y hx hy (plain_field ha hx) (plain_field hb hy)

theorem merge_plain (ha : a.Plain) (hb : b.Plain) : (merge a b).Plain :=
  (merges_to ha.orderly hb.orderly).plain ha hb

theorem MergesTo.orderly (h : MergesTo a b m) (ha : Orderly a) (hb : Orderly b) : Orderly m := by
  induction h with
  | same => exact ha
  | nullLeft => exact hb
  | nullRight => exact ha
  | storedLeft _ _ _ ih => exact ih (orderly_alias.mp ha) hb
  | storedRight _ _ _ ih => exact ih (orderly_alias.mp hb) ha
  | number => exact (of_span_plain _).orderly
  | dateTimestamp | timestampDate | mixed => exact Plain.orderly trivial
  | array _ ih => exact orderly_array.mpr (ih (orderly_array.mp ha) (orderly_array.mp hb))
  | map _ ih => exact orderly_map.mpr (ih (orderly_map.mp ha) (orderly_map.mp hb))
  | struct hfs hgs _ ih =>
    refine orderly_struct.mpr ⟨merge_fields_regular, ?_⟩
    intro f hf
    rcases merge_fields_mem hfs hgs hf with ht | ht | ⟨x, y, hx, hy, hxy⟩
    · exact orderly_field ha ht
    · exact orderly_field hb ht
    · rw [← hxy]
      exact ih _ x y hx hy (orderly_field ha hx) (orderly_field hb hy)

theorem merge_orderly (ha : Orderly a) (hb : Orderly b) : Orderly (merge a b) := (merges_to ha hb).orderly ha hb

end TypedRecords.DataType
