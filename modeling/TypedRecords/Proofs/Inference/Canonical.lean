import TypedRecords.Proofs.Inference.RecordSet
/-!
# Inferred schemas are canonical

Whatever records are looked at, a schema is inferred unless the options are invalid or names are compared without
their case and two of one struct agree. The types of its columns are storable at every depth.
-/

namespace TypedRecords

namespace DataType

theorem every_part {p : DataType → Prop} {t u : DataType} (hpart : Part u t) (h : t.Every p) : p u := by
  induction hpart with
  | here => exact every_self h
  | element _ ih | value _ ih | storage _ ih => exact ih h.2
  | field hf _ ih => exact ih (every_field_iff.mp h.2 _ hf)

theorem storable_distinct {t : DataType} (h : t.Every Storable) : t.repeatedName? id = none := by
  cases hname : t.repeatedName? id with
  | none => rfl
  | some name =>
    obtain ⟨fs, hpart, f, g, hsub, hkey, -⟩ := repeated_name_part t hname
    have hstorable : Storable (.struct fs) := every_part hpart h
    have hlt := List.pairwise_iff_forall_sublist.mp hstorable.2.1 hsub
    exact absurd hkey (ne_of_lt hlt)

end DataType

namespace Inference

open DataType

variable {o : Options} {a b : DataType}

section Seen

theorem element_type_seen (h : Seen a) : Seen (elementType a) := by
  fun_induction elementType a with
  | case1 e _ ih => exact ih (seen_array.mp h).2
  | case2 t _ => exact h

theorem merge_root_seen (ha : Seen a) (hb : Seen b) : Seen (mergeRoot o a b) := by
  rw [merge_root_eq ha.plain hb.plain]
  exact merge_elements_keeps (fun _ _ => merge_seen) corrupt_type_seen (element_type_seen ha) (element_type_seen hb)

theorem merge_all_roots_seen {ts : List DataType} (h : ∀ t ∈ ts, Seen t) : Seen (mergeAllRoots o ts) := by
  have hfold : ∀ root, Seen root → Seen (ts.foldl (mergeRoot o) root) := by
    induction ts with
    | nil =>
      intro root hroot
      exact hroot
    | cons t ts ih =>
      intro root hroot
      rw [List.forall_mem_cons] at h
      exact ih h.2 _ (merge_root_seen hroot h.1)
  exact hfold .null trivial

end Seen

section Sampling

mutual

theorem type_of_case (c : Bool) : (v : Json) → typeOf { o with caseSensitive := c } v = typeOf o v
  | .null => rfl
  | .bool _ => rfl
  | .str _ => rfl
  | .num _ => rfl
  | .arr items => by rw [typeOf, typeOf, type_of_items_case c items]
  | .obj members => by rw [typeOf, typeOf, type_of_members_case c members]

theorem type_of_items_case (c : Bool) {seen : DataType} : (items : List Json) →
    typeOfItems { o with caseSensitive := c } seen items = typeOfItems o seen items
  | [] => rfl
  | v :: vs => by rw [typeOfItems, typeOfItems, type_of_case c v, type_of_items_case c vs]

theorem type_of_members_case (c : Bool) : (members : List (String × Json)) →
    typeOfMembers { o with caseSensitive := c } members = typeOfMembers o members
  | [] => rfl
  | (_, v) :: rest => by rw [typeOfMembers, typeOfMembers, type_of_case c v, type_of_members_case c rest]

end

theorem type_of_record_case (c : Bool) : typeOfRecord { o with caseSensitive := c } = typeOfRecord o := by
  funext text
  unfold typeOfRecord
  cases Json.ofText? text with
  | none => rfl
  | some v => exact type_of_case c v

/-- The schema is that of the root of some of the records, the same ones however names are compared. -/
theorem infer_schema_sampled (hv : o.validate = .ok ()) (records : List String) : ∃ seen : List String, ∀ c,
    inferSchema { o with caseSensitive := c } records =
      Schema.ofFields (canonicalFields (structFields (mergeAllRoots o (seen.map (typeOfRecord o))))) c := by
  have hratio : ∃ sampler, Sampler.ofRatio o.samplingRatio o.samplingSeed = .ok sampler := by
    unfold Sampler.ofRatio
    rw [less_of_validate hv]
    simp only [Bool.not_true, Bool.false_eq_true, if_false]
    split
    · exact ⟨_, rfl⟩
    · exact ⟨_, rfl⟩
  obtain ⟨sampler, hsampler⟩ := hratio
  refine ⟨sampler.sample records, ?_⟩
  intro c
  have hvalid : Options.validate { o with caseSensitive := c } = .ok () := hv
  have hroot : mergeAllRoots { o with caseSensitive := c } = mergeAllRoots o := rfl
  unfold inferSchema
  simp only [hvalid, hsampler, bind, Except.bind]
  rw [schema_of_root_eq, hroot, type_of_record_case]

end Sampling

/-- Two names of one struct that differ in their case only; `name` is the later one. -/
def CaseClash (s : Schema) (name : String) : Prop :=
  ∃ fs, Part (.struct fs) s.toType ∧ Repeats Text.lowercase name fs

section Roots

variable {root : DataType} {s : Schema} {c : Bool}

theorem root_fields_storable (h : Seen root) :
    canonicalFields (structFields root) = [] ∨ Every Storable (.struct (canonicalFields (structFields root))) := by
  by_cases hne : canonicalFields (structFields root) = []
  · exact Or.inl hne
  · right
    cases root with
    | struct fs =>
      apply canonical_storable h
      rw [canonical?]
      split
      · contradiction
      · next g gs heq => rw [structFields, heq]
    | _ => exact absurd rfl hne

theorem root_schema_storable (h : Seen root) (hs : Schema.ofFields (canonicalFields (structFields root)) c = .ok s) :
    s = .empty ∨ s.toType.Every Storable := by
  have hfields := (Schema.of_fields_ok_iff.mp hs).1
  rcases root_fields_storable h with hnil | hstorable
  · left
    obtain ⟨gs, hgs⟩ := s
    obtain rfl : gs = [] := hfields.trans hnil
    rfl
  · right
    rwa [Schema.toType, hfields]

theorem root_schema (h : Seen root) : ∃ s, Schema.ofFields (canonicalFields (structFields root)) true = .ok s := by
  apply Schema.of_fields_exists.mpr
  rcases root_fields_storable h with hnil | hstorable
  · rw [hnil]
    rfl
  · have hdistinct := storable_distinct hstorable
    rwa [DataType.repeatedName?] at hdistinct

theorem root_schema_clash (h : Seen root) {e : Error}
    (he : Schema.ofFields (canonicalFields (structFields root)) c = .error e) :
    c = false ∧ ∃ s name, Schema.ofFields (canonicalFields (structFields root)) true = .ok s ∧ CaseClash s name ∧
      e = .duplicateField name := by
  obtain ⟨s, hs⟩ := root_schema h
  obtain ⟨hfields, hnone⟩ := Schema.of_fields_ok_iff.mp hs
  unfold Schema.ofFields at he
  split at he
  · next name hname =>
    cases c with
    | true =>
      rw [hnone] at hname
      contradiction
    | false =>
      obtain ⟨fs, hpart, hrepeats⟩ := repeated_name_part (.struct _) (by rwa [DataType.repeatedName?])
      refine ⟨rfl, s, name, hs, ⟨fs, ?_, hrepeats⟩, (Except.error.inj he).symm⟩
      rwa [Schema.toType, hfields]
  · contradiction

theorem schema_error_of_clash {fs : List Field} {name : String} (hs : Schema.ofFields fs true = .ok s)
    (h : CaseClash s name) : ∃ e, Schema.ofFields fs false = .error e := by
  obtain ⟨gs, hpart, hrepeats⟩ := h
  cases hresult : Schema.ofFields fs false with
  | error e => exact ⟨e, rfl⟩
  | ok s' =>
    have hnone := (Schema.of_fields_ok_iff.mp hresult).2
    rw [← (Schema.of_fields_ok_iff.mp hs).1] at hnone
    exact absurd hrepeats (part_of_repeated_none hpart (by rwa [Schema.toType, DataType.repeatedName?]))

end Roots

theorem infer_schema_root (hv : o.validate = .ok ()) (records : List String) : ∃ root, Seen root ∧ ∀ c,
    inferSchema { o with caseSensitive := c } records = Schema.ofFields (canonicalFields (structFields root)) c := by
  obtain ⟨seen, hschema⟩ := infer_schema_sampled hv records
  refine ⟨_, merge_all_roots_seen ?_, hschema⟩
  intro t ht
  obtain ⟨text, -, rfl⟩ := List.mem_map.mp ht
  exact type_of_record_seen text

theorem infer_schema_storable {records : List String} {s : Schema} (h : inferSchema o records = .ok s) :
    s = .empty ∨ s.toType.Every Storable := by
  obtain ⟨root, hseen, hschema⟩ := infer_schema_root (validate_of_infer h) records
  have hself : inferSchema o records = _ := hschema o.caseSensitive
  rw [hself] at h
  exact root_schema_storable hseen h

/-- Inference fails only for invalid options, or for names that clash when their case is passed over, and always
then. A schema that it gives is empty or storable at every depth. -/
theorem infer_schema_canonical (o : Options) (records : List String) :
    (∀ s, inferSchema o records = .ok s → s = .empty ∨ s.toType.Every Storable) ∧
    (∀ e, inferSchema o records = .error e → o.validate = .error e ∨ o.caseSensitive = false ∧
      ∃ s name, inferSchema { o with caseSensitive := true } records = .ok s ∧ CaseClash s name ∧
        e = .duplicateField name) ∧
    ((∃ e, o.validate = .error e) ∨ o.caseSensitive = false ∧
      (∃ s name, inferSchema { o with caseSensitive := true } records = .ok s ∧ CaseClash s name) →
        ∃ e, inferSchema o records = .error e) := by
  refine ⟨fun s => infer_schema_storable, ?_⟩
  cases hv : o.validate with
  | error e =>
    have herror : inferSchema o records = .error e := by simp [inferSchema, hv, bind, Except.bind]
    rw [herror]
    refine ⟨?_, fun _ => ⟨e, rfl⟩⟩
    intro e' he
    obtain rfl := Except.error.inj he
    exact Or.inl rfl
  | ok =>
    obtain ⟨root, hseen, hschema⟩ := infer_schema_root hv records
    have hself : inferSchema o records = _ := hschema o.caseSensitive
    rw [hself, hschema true]
    constructor
    · intro e he
      exact Or.inr (root_schema_clash hseen he)
    · rintro (⟨e, he⟩ | ⟨hcase, s, name, hs, hclash⟩)
      · contradiction
      · rw [hcase]
        exact schema_error_of_clash hs hclash

/-- Two names that differ in their case, in a struct under an array. -/
theorem infer_schema_canonical_clash :
    let o : Options := { caseSensitive := false }
    let records := ["\x7b\"users\":[\x7b\"id\":0.5,\"ID\":[]\x7d]\x7d", "\x7b\"\":1\x7d"]
    let s : Schema := ⟨[⟨"users", .array (.struct [⟨"ID", .array .string true, true⟩, ⟨"id", .double, true⟩]) true,
      true⟩], rfl⟩
    (inferSchema {} records = .ok s ∧ (s = .empty ∨ s.toType.Every Storable)) ∧
    (inferSchema o records = .error (.duplicateField "id") ∧ (o.validate = .error (.duplicateField "id") ∨
      o.caseSensitive = false ∧ ∃ s name, inferSchema { o with caseSensitive := true } records = .ok s ∧
        CaseClash s name ∧ Error.duplicateField "id" = .duplicateField name)) := by
  intro o records s
  have hvalid : o.validate = .ok () := default_valid
  have hok : inferSchema {} records = .ok s := by
    rw [infer_schema_all default_valid default_unsampled]
    decide +kernel
  have herror : inferSchema o records = .error (.duplicateField "id") := by
    rw [infer_schema_all hvalid default_unsampled]
    decide +kernel
  exact ⟨⟨hok, (infer_schema_canonical {} records).1 s hok⟩, herror, (infer_schema_canonical o records).2.1 _ herror⟩

end Inference

end TypedRecords
