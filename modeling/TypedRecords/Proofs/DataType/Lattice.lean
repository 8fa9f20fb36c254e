import Mathlib.Data.Finset.Lattice.Fold
import TypedRecords.Proofs.DataType.Merging
/-!
# The lattice of plain types

On plain types `merge` is commutative, associative and idempotent, so it is the join of an order with `null`
at the bottom and `string` at the top. Merging any number of types gives the join of the set of them.
-/

namespace TypedRecords.DataType

variable {a b c : DataType}

theorem string_merge (ha : a.Plain) : merge .string a = .string := by
  by_cases hn : a = .null
  · rw [hn, merge_null]
  by_cases hs : a = .string
  · rw [hs, merge_self]
  · exact merge_family_ne (by decide) ha.family_ne_named (by simp) hn fun h => hs (string_of_family h.symm)

theorem merge_string (ha : a.Plain) : merge a .string = .string := by
  by_cases hn : a = .null
  · rw [hn, null_merge]
  by_cases hs : a = .string
  · rw [hs, merge_self]
  · exact merge_family_ne ha.family_ne_named (by decide) hn (by simp) fun h => hs (string_of_family h)

theorem merge_comm (ha : a.Plain) (hb : b.Plain) : merge a b = merge b a := by
  have h := merges_to ha.orderly hb.orderly
  generalize merge a b = m at h
  induction h with
  | same => rw [merge_self]
  | nullLeft => rw [merge_null]
  | nullRight => rw [null_merge]
  | storedLeft => exact absurd ha not_plain_alias
  | storedRight => exact absurd hb not_plain_alias
  | number hna hnb hne => rw [merge_numbers_of_ne hnb hna hne.symm, sup_comm]
  | dateTimestamp | timestampDate => rfl
  | array _ ih => rw [merge_array, Bool.or_comm, ih (plain_array.mp ha) (plain_array.mp hb)]
  | map _ ih => rw [merge_map, Bool.or_comm, ih (plain_map.mp ha) (plain_map.mp hb)]
  | struct hfs hgs _ ih =>
    rw [merge_struct_regular hgs hfs, merge_fields_comm hfs hgs]
    intro name x y hx hy
    exact ih name x y hx hy (plain_field ha hx) (plain_field hb hy)
  | mixed hfa hfb han hbn hne => rw [merge_family_ne hfb hfa hbn han hne.symm]

/-- Where two of three types are of different families, merging all three gives `string`. -/
theorem merge_assoc_mixed (ha : a.Plain) (hb : b.Plain) (hc : c.Plain) (han : a ≠ .null)
    (hbn : b ≠ .null) (hcn : c ≠ .null) (h : ¬ (a.family = b.family ∧ b.family = c.family)) :
    merge (merge a b) c = .string := by
  by_cases hab : a.family = b.family
  · have hfam : (merge a b).family = a.family := by rw [family_merge ha hb han hbn, if_pos hab]
    have hne : (merge a b).family ≠ c.family := fun he => h ⟨hab, (hab.symm.trans hfam.symm).trans he⟩
    refine merge_family_ne (merge_plain ha hb).family_ne_named hc.family_ne_named (fun hm => ?_) hcn hne
    rw [hm] at hfam
    exact han (null_of_family hfam.symm)
  · rw [merge_family_ne ha.family_ne_named hb.family_ne_named han hbn hab, string_merge hc]

theorem merge_assoc (ha : a.Plain) (hb : b.Plain) (hc : c.Plain) :
    merge (merge a b) c = merge a (merge b c) := by
  induction hn : a.size using Nat.strong_induction_on generalizing a b c with
  | h n ih =>
    subst hn
    by_cases han : a = .null
    · rw [han, null_merge, null_merge]
    by_cases hbn : b = .null
    · rw [hbn, merge_null, null_merge]
    by_cases hcn : c = .null
    · rw [hcn, merge_null, merge_null]
    by_cases h : a.family = b.family ∧ b.family = c.family
    · obtain ⟨hab, hbc⟩ := h
      cases hfam : a.family with
      | number =>
        have hnb := (number_iff_family b).mpr (hab ▸ hfam)
        have hnc := (number_iff_family c).mpr (hbc ▸ hab ▸ hfam)
        exact merge_numbers_assoc ((number_iff_family a).mpr hfam) hnb hnc ha.decimal_valid
          hb.decimal_valid
      | named => exact absurd hfam ha.family_ne_named
      | array =>
        obtain ⟨e, n, rfl⟩ := array_of_family hfam
        obtain ⟨e', n', rfl⟩ := array_of_family hab.symm
        obtain ⟨e'', n'', rfl⟩ := array_of_family hbc.symm
        rw [merge_array, merge_array, merge_array, merge_array, Bool.or_assoc,
          ih _ (by simp [size]) (plain_array.mp ha) (plain_array.mp hb) (plain_array.mp hc) rfl]
      | map =>
        obtain ⟨v, n, rfl⟩ := map_of_family hfam
        obtain ⟨v', n', rfl⟩ := map_of_family hab.symm
        obtain ⟨v'', n'', rfl⟩ := map_of_family hbc.symm
        rw [merge_map, merge_map, merge_map, merge_map, Bool.or_assoc,
          ih _ (by simp [size]) (plain_map.mp ha) (plain_map.mp hb) (plain_map.mp hc) rfl]
      | struct =>
        obtain ⟨fs, rfl⟩ := struct_of_family hfam
        obtain ⟨gs, rfl⟩ := struct_of_family hab.symm
        obtain ⟨ks, rfl⟩ := struct_of_family hbc.symm
        have hfs := (plain_struct.mp ha).1
        have hgs := (plain_struct.mp hb).1
        have hks := (plain_struct.mp hc).1
        rw [merge_struct_regular hfs hgs, merge_struct_regular hgs hks, merge_struct_regular merge_fields_regular hks,
          merge_struct_regular hfs merge_fields_regular, merge_fields_assoc hfs hgs hks]
        intro name x y z hx hy hz
        exact ih _ (field_type_size hx) (plain_field ha hx) (plain_field hb hy) (plain_field hc hz) rfl
      | temporal | null | boolean | binary | string =>
        cases a <;> simp [family] at hfam <;> cases b <;> simp [family] at hab <;>
          cases c <;> simp [family] at hbc <;> rfl
    · have hr : ¬ (c.family = b.family ∧ b.family = a.family) := fun hr => h ⟨hr.2.symm, hr.1.symm⟩
      rw [merge_assoc_mixed ha hb hc han hbn hcn h, merge_comm ha (merge_plain hb hc),
        merge_comm hb hc, merge_assoc_mixed hc hb ha hcn hbn han hr]

/-- The plain types, ordered by merging. -/
abbrev PlainType := {t : DataType // t.Plain}

instance : Max PlainType := ⟨fun a b => ⟨merge a.1 b.1, merge_plain a.2 b.2⟩⟩

instance : SemilatticeSup PlainType :=
  SemilatticeSup.mk' (fun a b => Subtype.ext (merge_comm a.2 b.2))
    (fun a b c => Subtype.ext (merge_assoc a.2 b.2 c.2)) (fun a => Subtype.ext (merge_self a.1))

instance : OrderBot PlainType where
  bot := ⟨.null, trivial⟩
  bot_le a := Subtype.ext (null_merge a.1)

instance : OrderTop PlainType where
  top := ⟨.string, trivial⟩
  le_top a := Subtype.ext (merge_string a.2)

theorem merge_all_sup (ts : List PlainType) :
    mergeAll (ts.map Subtype.val) = (ts.toFinset.sup id).val := by
  -- The fold starts from the bottom; the induction is over a fold that starts anywhere.
  have hfold : ∀ a : PlainType, (ts.map Subtype.val).foldl merge a.val = (a ⊔ ts.toFinset.sup id).val := by
    induction ts with
    | nil =>
      intro a
      simp
    | cons t ts ih =>
      intro a
      have hstep : merge a.val t.val = (a ⊔ t).val := rfl
      rw [List.map_cons, List.foldl_cons, hstep, ih, List.toFinset_cons, Finset.sup_insert, id, sup_assoc]
  have h := hfold ⊥
  rwa [bot_sup_eq] at h

variable {ts us : List DataType}

theorem merge_all_plain (hts : ∀ t ∈ ts, t.Plain) : (mergeAll ts).Plain := by
  lift ts to List PlainType using hts
  rw [merge_all_sup]
  exact (ts.toFinset.sup id).property

theorem merge_all_congr (hts : ∀ t ∈ ts, t.Plain) (h : ∀ t, t ∈ ts ↔ t ∈ us) :
    mergeAll ts = mergeAll us := by
  have hus : ∀ t ∈ us, t.Plain := by
    intro t ht
    exact hts t ((h t).mpr ht)
  lift ts to List PlainType using hts
  lift us to List PlainType using hus
  have hset : ts.toFinset = us.toFinset := by
    ext t
    have hmem := h t.val
    rwa [List.mem_map_of_injective Subtype.val_injective, List.mem_map_of_injective Subtype.val_injective,
      ← List.mem_toFinset, ← List.mem_toFinset] at hmem
  rw [merge_all_sup, merge_all_sup, hset]

/-- Plain types form a bounded semilattice under merging, so a collection of them has one type, whatever its order
and however often each of them occurs. -/
theorem plain_merge_lattice (ha : a.Plain) (hb : b.Plain) (hc : c.Plain) (hts : ∀ t ∈ ts, t.Plain)
    (h : ∀ t, t ∈ ts ↔ t ∈ us) :
    merge a b = merge b a ∧ merge (merge a b) c = merge a (merge b c) ∧ merge a a = a ∧
      (merge .null a = a ∧ merge a .null = a) ∧ (merge .string a = .string ∧ merge a .string = .string) ∧
      (merge a b).Plain ∧ mergeAll ts = mergeAll us ∧ (mergeAll ts).Plain := by
  refine ⟨merge_comm ha hb, merge_assoc ha hb hc, merge_self a, ?_, ?_, merge_plain ha hb, ?_, ?_⟩
  · constructor
    · exact null_merge a
    · exact merge_null a
  · constructor
    · exact string_merge ha
    · exact merge_string ha
  · exact merge_all_congr hts h
  · exact merge_all_plain hts

/-- The digits of the first two decimals pass the largest precision, and those of the last two do not. -/
theorem plain_merge_lattice_overflow :
    let a := struct [⟨"n", .decimal 38 0, true⟩]
    let b := struct [⟨"n", .decimal 10 10, true⟩]
    let c := struct [⟨"n", .long, true⟩]
    (a.Plain ∧ b.Plain ∧ c.Plain) ∧ (∀ t, t ∈ [a, b, c, a] ↔ t ∈ [c, b, a]) ∧
      merge a b = struct [⟨"n", .double, true⟩] ∧ merge b c = struct [⟨"n", .decimal 30 10, true⟩] ∧
      merge (merge a b) c = merge a (merge b c) ∧ mergeAll [a, b, c, a] = mergeAll [c, b, a] := by
  intro a b c
  have hone {t : DataType} (ht : t.Plain) : (struct [⟨"n", t, true⟩]).Plain := by
    refine plain_struct.mpr ⟨regular_nil.cons (by simp), ?_⟩
    intro f hf
    rwa [List.mem_singleton.mp hf]
  have ha : a.Plain := hone (plain_decimal.mpr (by decide))
  have hb : b.Plain := hone (plain_decimal.mpr (by decide))
  have hc : c.Plain := hone trivial
  have hts : ∀ t ∈ [a, b, c, a], t.Plain := by simp [ha, hb, hc]
  have hmem : ∀ t, t ∈ [a, b, c, a] ↔ t ∈ [c, b, a] := by
    intro t
    simp only [List.mem_cons, List.not_mem_nil]
    tauto
  have h := plain_merge_lattice ha hb hc hts hmem
  exact ⟨⟨ha, hb, hc⟩, hmem, rfl, rfl, h.2.1, h.2.2.2.2.2.2.1⟩

end TypedRecords.DataType
