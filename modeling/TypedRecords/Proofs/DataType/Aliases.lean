import TypedRecords.Proofs.DataType.Lattice
import TypedRecords.Proofs.Schema.Unaliased
/-!
# Merging types with aliases

Aliases say nothing about what is merged: replacing them in the merged type gives what the types without them merge to.
So up to aliases the laws of plain types hold, and any number of types gives one type whatever their order.
-/

namespace TypedRecords.DataType

variable {a b c m t : DataType} {fs gs : List Field} {ts us : List DataType}

theorem unaliased_number (h : t.isNumber = true) : t.unaliased = t := by
  cases t <;> first | contradiction | rfl

theorem unaliased_family (h : t.family ≠ .named) : t.unaliased.family = t.family := by
  cases t <;> first | contradiction | rfl

theorem unaliased_field_type (name : String) (fs : List Field) :
    fieldType? name (unaliasedFields fs) = (fieldType? name fs).map unaliased := by
  induction fs with
  | nil => rfl
  | cons f fs ih =>
    rw [unaliasedFields, fieldType?, fieldType?, ih]
    split <;> rfl

theorem unaliased_regular (h : Regular fs) : Regular (unaliasedFields fs) := by
  rw [unaliased_fields_eq]
  constructor
  · exact List.pairwise_map.mpr h.sorted
  · intro f hf
    obtain ⟨g, hg, rfl⟩ := List.mem_map.mp hf
    exact h.nullable g hg

mutual

theorem unaliased_plain : (t : DataType) → t.Orderly → t.unaliased.Plain
  | .alias _ t, h => unaliased_plain t (orderly_alias.mp h)
  | .array e _, h => plain_array.mpr (unaliased_plain e (orderly_array.mp h))
  | .map v _, h => plain_map.mpr (unaliased_plain v (orderly_map.mp h))
  | .struct fs, h => plain_struct.mpr
    ⟨unaliased_regular (orderly_struct.mp h).1, unaliased_fields_plain fs (orderly_struct.mp h).2⟩
  | .decimal _ _, h => h (by simp [family])
  | .null, _ | .string, _ | .boolean, _ | .byte, _ | .short, _ | .integer, _ | .long, _ | .float, _
  | .double, _ | .date, _ | .timestamp, _ | .binary, _ => trivial

theorem unaliased_fields_plain :
    (fs : List Field) → (∀ f ∈ fs, f.type.Orderly) → ∀ f ∈ unaliasedFields fs, f.type.Plain
  | [], _, _, hf => absurd hf List.not_mem_nil
  | ⟨_, t, _⟩ :: fs, h, f, hf => by
    rw [List.forall_mem_cons] at h
    rcases List.mem_cons.mp hf with rfl | hf
    · exact unaliased_plain t h.1
    · exact unaliased_fields_plain fs h.2 f hf

end

/-- Fields merge name by name, so their types may be freed of aliases first. -/
theorem unaliased_merge_fields (hfs : Regular fs) (hgs : Regular gs)
    (h : ∀ name x y, fieldType? name fs = some x → fieldType? name gs = some y →
      (merge x y).unaliased = merge x.unaliased y.unaliased) :
    unaliasedFields (mergeFields merge fs gs) = mergeFields merge (unaliasedFields fs) (unaliasedFields gs) := by
  refine (unaliased_regular merge_fields_regular).ext merge_fields_regular ?_
  intro name
  rw [unaliased_field_type, merge_fields_type hfs hgs, merge_fields_type (unaliased_regular hfs) (unaliased_regular hgs),
    unaliased_field_type, unaliased_field_type]
  cases hx : fieldType? name fs with
  | none => simp
  | some x =>
    cases hy : fieldType? name gs with
    | none => simp
    | some y =>
      rw [Option.merge_some_some, Option.map_some, h name x y hx hy]
      rfl

theorem MergesTo.unaliased (h : MergesTo a b m) (ha : a.Orderly) (hb : b.Orderly) :
    m.unaliased = merge a.unaliased b.unaliased := by
  induction h with
  | same => exact (merge_self _).symm
  | nullLeft => exact (null_merge _).symm
  | nullRight => exact (merge_null _).symm
  | storedLeft _ _ _ ih => exact ih (orderly_alias.mp ha) hb
  | storedRight _ _ _ ih =>
    -- The storage has changed sides, which plain types do not notice.
    have hs := orderly_alias.mp hb
    exact (ih hs ha).trans (merge_comm (unaliased_plain _ hs) (unaliased_plain _ ha))
  | number hna hnb hne =>
    rw [unaliased_number (of_span_number _), unaliased_number hna, unaliased_number hnb,
      merge_numbers_of_ne hna hnb hne]
  | dateTimestamp | timestampDate => rfl
  | array _ ih =>
    simp only [DataType.unaliased, merge_array, ih (orderly_array.mp ha) (orderly_array.mp hb)]
  | map _ ih =>
    simp only [DataType.unaliased, merge_map, ih (orderly_map.mp ha) (orderly_map.mp hb)]
  | struct hfs hgs hfields ih =>
    simp only [DataType.unaliased]
    rw [merge_struct_regular (unaliased_regular hfs) (unaliased_regular hgs), unaliased_merge_fields hfs hgs]
    intro name x y hx hy
    exact ih name x y hx hy (orderly_field ha hx) (orderly_field hb hy)
  | mixed hfa hfb han hbn hne =>
    have hfa' := unaliased_family hfa
    have hfb' := unaliased_family hfb
    have hnull {t : DataType} (hfam : t.unaliased.family = t.family) (hn : t ≠ .null) : t.unaliased ≠ .null := by
      intro he
      rw [he] at hfam
      exact hn (null_of_family hfam.symm)
    refine (merge_family_ne ?_ ?_ (hnull hfa' han) (hnull hfb' hbn) ?_).symm
    · rwa [hfa']
    · rwa [hfb']
    · rwa [hfa', hfb']

theorem merge_unaliased (ha : a.Orderly) (hb : b.Orderly) :
    (merge a b).unaliased = merge a.unaliased b.unaliased :=
  (merges_to ha hb).unaliased ha hb

theorem merge_all_unaliased (hts : ∀ t ∈ ts, t.Orderly) : (mergeAll ts).unaliased = mergeAll (ts.map unaliased) := by
  -- The fold starts from `null`; the induction is over a fold that starts anywhere.
  have hfold : ∀ a : DataType, a.Orderly → (ts.foldl merge a).unaliased = (ts.map unaliased).foldl merge a.unaliased := by
    induction ts with
    | nil =>
      intro a ha
      rfl
    | cons t ts ih =>
      intro a ha
      rw [List.forall_mem_cons] at hts
      rw [List.foldl_cons, ih hts.2 _ (merge_orderly ha hts.1), merge_unaliased ha hts.1, List.map_cons, List.foldl_cons]
  exact hfold .null (Plain.orderly trivial)

/-- Replacing aliases commutes with merging. Up to aliases merging is commutative and associative, and neither the order
of any number of types nor repetitions among them matter. -/
theorem merge_up_to_aliases (ha : a.Orderly) (hb : b.Orderly) (hc : c.Orderly) (hts : ∀ t ∈ ts, t.Orderly)
    (h : ∀ t, t ∈ ts ↔ t ∈ us) :
    (merge a b).unaliased = merge a.unaliased b.unaliased ∧ (merge a b).unaliased = (merge b a).unaliased ∧
      (merge (merge a b) c).unaliased = (merge a (merge b c)).unaliased ∧ (merge a b).Orderly ∧
      (mergeAll ts).unaliased = mergeAll (ts.map unaliased) ∧ (mergeAll ts).unaliased = (mergeAll us).unaliased := by
  have hpa := unaliased_plain a ha
  have hpb := unaliased_plain b hb
  have hpc := unaliased_plain c hc
  have hus : ∀ t ∈ us, t.Orderly := by
    intro t ht
    exact hts t ((h t).mpr ht)
  refine ⟨merge_unaliased ha hb, ?_, ?_, merge_orderly ha hb, merge_all_unaliased hts, ?_⟩
  · rw [merge_unaliased ha hb, merge_unaliased hb ha]
    exact merge_comm hpa hpb
  · rw [merge_unaliased (merge_orderly ha hb) hc, merge_unaliased ha (merge_orderly hb hc), merge_unaliased ha hb,
      merge_unaliased hb hc]
    exact merge_assoc hpa hpb hpc
  · rw [merge_all_unaliased hts, merge_all_unaliased hus]
    apply merge_all_congr
    · intro t ht
      obtain ⟨s, hs, rfl⟩ := List.mem_map.mp ht
      exact unaliased_plain s (hts s hs)
    · intro t
      simp only [List.mem_map, h]

/-- Which alias survives depends on the side here, and what is stored does not. -/
theorem merge_up_to_aliases_vectors :
    let a := struct [⟨"v", .alias "Vector" (.array .double true), true⟩]
    let b := struct [⟨"v", .alias "Gone" .null, true⟩, ⟨"w", .alias "Id" .long, true⟩]
    let c := DataType.alias "Row" (struct [⟨"v", .array (.alias "Id" .long) false, true⟩])
    (a.Orderly ∧ b.Orderly ∧ c.Orderly) ∧ (∀ t, t ∈ [a, b, c, a] ↔ t ∈ [c, b, a]) ∧
      merge a b = struct [⟨"v", .array .double true, true⟩, ⟨"w", .alias "Id" .long, true⟩] ∧
      merge b a = struct [⟨"v", .alias "Vector" (.array .double true), true⟩, ⟨"w", .alias "Id" .long, true⟩] ∧
      (merge a b).unaliased = merge a.unaliased b.unaliased ∧ (merge a b).unaliased = (merge b a).unaliased ∧
      (merge (merge a b) c).unaliased = (merge a (merge b c)).unaliased ∧
      (mergeAll [a, b, c, a]).unaliased = (mergeAll [c, b, a]).unaliased := by
  intro a b c
  have hone {t : DataType} (ht : t.Orderly) : (struct [⟨"v", t, true⟩]).Orderly := by
    refine orderly_struct.mpr ⟨regular_nil.cons (by simp), ?_⟩
    intro f hf
    rwa [List.mem_singleton.mp hf]
  have ha : a.Orderly := hone (orderly_alias.mpr (orderly_array.mpr (Plain.orderly trivial)))
  have hb : b.Orderly := by
    refine orderly_struct.mpr ⟨(regular_nil.cons (by simp)).cons (by decide), ?_⟩
    simp only [List.forall_mem_cons, orderly_alias]
    exact ⟨Plain.orderly trivial, Plain.orderly trivial, by simp⟩
  have hc : c.Orderly := orderly_alias.mpr (hone (orderly_array.mpr (orderly_alias.mpr (Plain.orderly trivial))))
  have hts : ∀ t ∈ [a, b, c, a], t.Orderly := by simp [ha, hb, hc]
  have hmem : ∀ t, t ∈ [a, b, c, a] ↔ t ∈ [c, b, a] := by
    intro t
    simp only [List.mem_cons, List.not_mem_nil]
    tauto
  obtain ⟨hab, hcomm, hassoc, -, -, hall⟩ := merge_up_to_aliases ha hb hc hts hmem
  exact ⟨⟨ha, hb, hc⟩, hmem, by decide, by decide +kernel, hab, hcomm, hassoc, hall⟩

end TypedRecords.DataType
