import TypedRecords.Proofs.Inference.Soundness
/-!
# Records kept as text

Inference and decoding each tell objects from other records. A record that inference takes for neither an
object nor null makes the corrupt column, so decoding keeps its text there. Inference takes an empty string for
null and an array for what it holds, at any depth, and such a record may find no column.
-/

namespace TypedRecords.Inference

open DataType Decode

variable {o : Options} {v : Json} {s : Schema} {name text : String}

/-- The trees whose records are kept as text: other scalars than null, and arrays that hold anything but objects
and nulls. -/
def CorruptRoot : Json → Prop
  | .null => False
  | .obj _ => False
  | .arr items => ∃ v ∈ items, isRowToken v = false
  | _ => True

theorem record_corrupt_root (hv : Json.ofText? text = some v) (hroot : CorruptRoot v) :
    record s o text = .ok (corruptRows s o text) := by
  unfold record
  rw [hv]
  cases v with
  | null => contradiction
  | obj members => contradiction
  | arr items =>
    obtain ⟨w, hw, hrow⟩ := hroot
    have hall : ¬ items.all isRowToken = true := fun h => by
      have := List.all_eq_true.mp h w hw
      simp [hrow] at this
    dsimp only
    rw [if_neg hall]
  | bool b => rfl
  | num literal => rfl
  | str t => rfl

theorem corrupt_column_within {a : DataType} {gs : List Field} (han : a ≠ .null) (has : a.family ≠ .struct)
    (h : mergeElements o a (.struct gs) = .struct gs) (hg : Plain (.struct gs)) :
    Within (corruptType o) (.struct gs) := by
  have hgs : (DataType.struct gs).family = .struct := rfl
  rw [merge_elements_eq han (by simp), if_neg has, if_pos hgs, merge_comm hg corrupt_type_plain] at h
  exact h

theorem canonical_field_mem {fs : List Field} {t u : DataType} (hname : name ≠ "")
    (ht : fieldType? name fs = some t) (hu : t.canonical? = some u) :
    ∃ f ∈ canonicalFields fs, f.name = name := by
  induction fs with
  | nil => simp at ht
  | cons f fs ih =>
    obtain ⟨key, w, nullable⟩ := f
    rw [fieldType?] at ht
    split at ht
    · next hk =>
      obtain rfl := Option.some.inj ht
      dsimp only at hk
      subst hk
      exact ⟨⟨key, u, nullable⟩, by simp [canonicalFields, hname, hu], rfl⟩
    · obtain ⟨f, hf, hfn⟩ := ih ht
      refine ⟨f, ?_, hfn⟩
      rw [canonicalFields]
      repeat' split
      · exact hf
      · exact List.mem_cons_of_mem _ hf
      · exact hf

theorem corrupt_index_of_root {gs : List Field} (hg : Plain (.struct gs)) (hs : s.fields = canonicalFields gs)
    (hc : o.corruptColumn = some name) (hname : name ≠ "") (ht : fieldType? name gs = some .string) :
    ∃ i, s.indexOf? name = some i ∧ s.fields[i]? = some ⟨name, .string, true⟩ ∧
      corruptIndex? s o = some i := by
  obtain ⟨f, hf, hfn⟩ := canonical_field_mem hname ht rfl
  obtain ⟨i, hi⟩ : ∃ i, s.indexOf? name = some i := by
    rw [Schema.indexOf?, hs]
    cases hfind : (canonicalFields gs).findIdx? (·.name == name) with
    | some i => exact ⟨i, rfl⟩
    | none =>
      rw [List.findIdx?_eq_none_iff] at hfind
      have := hfind f hf
      simp [hfn] at this
  obtain ⟨hlt, hkey, -⟩ := List.findIdx?_eq_some_iff_getElem.mp hi
  rw [beq_iff_eq] at hkey
  have hmem : s.fields[i] ∈ canonicalFields gs := hs ▸ List.getElem_mem hlt
  have hregular := (plain_struct.mp hg).1
  have hnull := (canonical_fields_regular hregular).nullable _ hmem
  obtain ⟨t, hlookup, hcanonical⟩ := canonical_field_type hregular hmem
  rw [hkey, ht] at hlookup
  obtain rfl := Option.some.inj hlookup
  have hfield : s.fields[i]? = some ⟨name, .string, true⟩ := by
    rw [List.getElem?_eq_getElem hlt, ← hkey, ← hnull, Option.some.inj hcanonical]
  refine ⟨i, hi, hfield, ?_⟩
  simp [corruptIndex?, hc, hi, hfield, DataType.resolve]

theorem struct_of_schema {root : DataType} (h : schemaOfRoot o root = .ok s) (hne : s.isEmpty = false) :
    ∃ gs, root = .struct gs := by
  by_cases hroot : root.family = .struct
  · cases root <;> first | contradiction | exact ⟨_, rfl⟩
  · rw [schema_of_root_eq, struct_fields_of_family hroot] at h
    have hempty := (Schema.of_fields_ok_iff.mp h).1
    rw [Schema.isEmpty, hempty] at hne
    contradiction

theorem corrupt_name_ne {name : String} (hv : o.validate = .ok ()) (hc : o.corruptColumn = some name) :
    name ≠ "" := by
  rintro rfl
  unfold Options.validate at hv
  split at hv
  · cases hv
  · split at hv
    · cases hv
    · cases hv

theorem corrupt_index_of_within {gs : List Field} (hv : o.validate = .ok ()) (hc : o.corruptColumn = some name)
    (hg : Plain (.struct gs)) (h : schemaOfRoot o (.struct gs) = .ok s)
    (hw : Within (corruptType o) (.struct gs)) :
    ∃ i, s.indexOf? name = some i ∧ s.fields[i]? = some ⟨name, .string, true⟩ ∧
      corruptIndex? s o = some i := by
  have hcorrupt : corruptType o = .struct [⟨name, .string, true⟩] := by rw [corruptType, hc]
  have hcolumn : fieldType? name [(⟨name, .string, true⟩ : Field)] = some .string := field_type_head _ _
  rw [hcorrupt] at hw
  have hregular := (plain_struct.mp (hcorrupt ▸ corrupt_type_plain)).1
  obtain ⟨t, ht, hle⟩ := hw.field hregular (plain_struct.mp hg).1 hcolumn
  obtain rfl := within_string hle (plain_field hg ht)
  exact corrupt_index_of_root hg (schema_of_struct h) hc (corrupt_name_ne hv hc) ht

/-- A readable record that decoding takes for a corrupt one is kept as the one row with its text in the corrupt
column, or it is null or a struct to inference and the schema has no such column of strings. -/
theorem corrupt_root_kept (hs : Options.samplingLimit.less o.samplingRatio = true)
    (hc : o.corruptColumn = some name) {records : List String} (h : inferSchema o records = .ok s)
    (hne : s.isEmpty = false) (hm : text ∈ records) (hv : Json.ofText? text = some v)
    (hroot : CorruptRoot v) :
    (∃ i, s.indexOf? name = some i ∧ corruptIndex? s o = some i ∧
        record s o text = .ok [(Row.nulls s.size).put i (.string text)]) ∨
      (elementType (typeOf o v) = .null ∨ (elementType (typeOf o v)).family = .struct) ∧
        corruptIndex? s o = none ∧ record s o text = .ok [] := by
  have hvalid := validate_of_infer h
  have htype : typeOfRecord o text = typeOf o v := by rw [typeOfRecord, hv]
  rw [infer_schema_all hvalid hs] at h
  obtain ⟨root, hrecords, habove⟩ := root_above (o := o) hm
  rw [hrecords] at h
  rw [htype] at habove
  obtain ⟨gs, hgs⟩ := struct_of_schema h hne
  have hplain : Plain (.struct gs) := hgs ▸ root.plain
  rw [hgs] at h habove
  rw [record_corrupt_root hv hroot]
  by_cases hseen : elementType (typeOf o v) = .null ∨ (elementType (typeOf o v)).family = .struct
  · cases hi : corruptIndex? s o with
    | none => exact Or.inr ⟨hseen, rfl, by rw [corruptRows, hi]⟩
    | some i =>
      refine Or.inl ⟨i, ?_, rfl, by rw [corruptRows, hi]⟩
      simp only [corruptIndex?, hc, Option.bind_eq_bind, Option.bind_eq_some_iff, Option.some.injEq,
        exists_eq_left'] at hi
      obtain ⟨j, hj, f, -, hi⟩ := hi
      split at hi
      · rw [hj, hi]
      · cases hi
  · rw [not_or] at hseen
    have hwithin := corrupt_column_within hseen.1 hseen.2 habove hplain
    obtain ⟨i, hi, -, hindex⟩ := corrupt_index_of_within hvalid hc hplain h hwithin
    exact Or.inl ⟨i, hi, hindex, by rw [corruptRows, hindex]⟩

/-- A number beside an object is kept as text. -/
theorem corrupt_root_kept_number :
    let records := ["\x7b\"a\":1\x7d", "7"]
    let s : Schema := ⟨[⟨"_corrupt_record", .string, true⟩, ⟨"a", .long, true⟩], rfl⟩
    Options.samplingLimit.less ({} : Options).samplingRatio = true ∧
      ({} : Options).corruptColumn = some "_corrupt_record" ∧ inferSchema {} records = .ok s ∧
      s.isEmpty = false ∧ "7" ∈ records ∧ Json.ofText? "7" = some (.num "7") ∧ CorruptRoot (.num "7") ∧
      ∃ i, s.indexOf? "_corrupt_record" = some i ∧ corruptIndex? s {} = some i ∧
        record s {} "7" = .ok [(Row.nulls s.size).put i (.string "7")] := by
  intro records s
  have h : inferSchema {} records = .ok s := by
    rw [infer_schema_all default_valid default_unsampled]
    decide +kernel
  have hv : Json.ofText? "7" = some (.num "7") := by cbv
  have hm : "7" ∈ records := by simp [records]
  refine ⟨default_unsampled, rfl, h, rfl, hm, hv, trivial, ?_⟩
  exact (corrupt_root_kept default_unsampled rfl h rfl hm hv trivial).resolve_right fun hlost =>
    absurd hlost.2.1 (by decide +kernel)

/-- An empty string beside an object is lost. -/
theorem empty_root_lost :
    let records := ["\x7b\"a\":1\x7d", "\"\""]
    let s : Schema := ⟨[⟨"a", .long, true⟩], rfl⟩
    Options.samplingLimit.less ({} : Options).samplingRatio = true ∧
      ({} : Options).corruptColumn = some "_corrupt_record" ∧ inferSchema {} records = .ok s ∧
      s.isEmpty = false ∧ "\"\"" ∈ records ∧ Json.ofText? "\"\"" = some (.str "") ∧ CorruptRoot (.str "") ∧
      ¬ ∃ row, record s {} "\"\"" = .ok [row] := by
  intro records s
  have h : inferSchema {} records = .ok s := by
    rw [infer_schema_all default_valid default_unsampled]
    decide +kernel
  have hv : Json.ofText? "\"\"" = some (.str "") := by cbv
  have hnone : corruptIndex? s {} = none := by decide +kernel
  refine ⟨default_unsampled, rfl, h, rfl, by simp [records], hv, trivial, ?_⟩
  rintro ⟨row, hrow⟩
  rw [record_corrupt_root hv trivial, corruptRows, hnone] at hrow
  cases hrow

end TypedRecords.Inference
