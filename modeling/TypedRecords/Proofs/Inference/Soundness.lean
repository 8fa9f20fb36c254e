import TypedRecords.Proofs.DataType.Order
import TypedRecords.Proofs.Inference.Literals
import TypedRecords.Proofs.Inference.RecordSet
import TypedRecords.Proofs.Json.Formed
import TypedRecords.Proofs.Row.Read
/-!
# Soundness of inference

A tree is readable as every type above its own, so every record is readable under the schema of a collection
that holds it.
-/

namespace TypedRecords.Inference

open DataType Decode

variable {o : Options} {t u : DataType} {v : Json}

theorem type_of_members_none {members : List (String × Json)} {name : String}
    (h : name ∉ members.map Prod.fst) : fieldType? name (typeOfMembers o members) = none := by
  induction members with
  | nil => rfl
  | cons m rest ih =>
    obtain ⟨k, w⟩ := m
    rw [List.map_cons, List.mem_cons, not_or] at h
    rw [typeOfMembers, enter_field_type (plain_struct.mp (type_of_members_plain rest)).1, ih h.2,
      if_neg fun hk => h.1 hk.symm]
    rfl

theorem type_of_members_type {members : List (String × Json)} (hn : (members.map Prod.fst).Nodup)
    {name : String} (hm : (name, v) ∈ members) :
    fieldType? name (typeOfMembers o members) = some (typeOf o v) := by
  induction members with
  | nil => simp at hm
  | cons m rest ih =>
    obtain ⟨k, w⟩ := m
    obtain ⟨hk, hrest⟩ := List.nodup_cons.mp hn
    have hregular := (plain_struct.mp (type_of_members_plain (o := o) rest)).1
    rw [typeOfMembers, enter_field_type hregular]
    rcases List.mem_cons.mp hm with heq | hm
    · obtain ⟨rfl, rfl⟩ := Prod.mk.inj heq
      rw [type_of_members_none hk, if_pos rfl]
      rfl
    · have hne : k ≠ name := by
        rintro rfl
        exact hk (List.mem_map.mpr ⟨_, hm, rfl⟩)
      rw [ih hrest hm, if_neg hne]
      rfl

theorem seen_within_items {seen : DataType} (hs : seen.Plain) (items : List Json) :
    Within seen (typeOfItems o seen items) := by
  induction items generalizing seen with
  | nil => exact within_refl seen
  | cons v vs ih =>
    have hv := type_of_plain (o := o) v
    have hm := merge_plain hs hv
    exact within_trans hs hm (type_of_items_plain vs hm) (within_merge_left hs hv) (ih hm)

theorem item_within {seen : DataType} (hs : seen.Plain) {items : List Json} (hv : v ∈ items) :
    Within (typeOf o v) (typeOfItems o seen items) := by
  induction items generalizing seen with
  | nil => simp at hv
  | cons w ws ih =>
    have hw := type_of_plain (o := o) w
    have hm := merge_plain hs hw
    rcases List.mem_cons.mp hv with rfl | hv
    · exact within_trans hw hm (type_of_items_plain ws hm) (within_merge_right hs hw)
        (seen_within_items hm ws)
    · exact ih hm hv

theorem number_reads (n : Json.Numeral) (ht : t.Plain)
    (hw : Within (typeOf o (.num (String.ofList n.chars))) t) (hu : t.canonical? = some u) :
    Reads o u (.num (String.ofList n.chars)) := by
  have hplain : (typeOf o (.num (String.ofList n.chars))).Plain := type_of_plain _
  have hspec : NumberType (String.ofList n.chars) (typeOf o (.num (String.ofList n.chars))) := number_type n
  generalize typeOf o (.num (String.ofList n.chars)) = a at hw hplain hspec
  cases hspec with
  | @long z hz =>
    rcases within_long hw ht with rfl | rfl | rfl | ⟨p, s, rfl, hps⟩ <;> obtain rfl := Option.some.inj hu
    · exact reads_string _
    · exact reads_double _
    · exact reads_long hz
    · have hdec := plain_decimal.mp ht
      have hlt := Literal.long_lt hz
      have hparse := Literal.parse_signed (Literal.long_inv hz).1
        (hlt.trans_le (Nat.pow_le_pow_right (by decide) (by decide)))
      have hscale : (⟨z, 0⟩ : Literal).scale = ((0 : Nat) : Int) := rfl
      obtain ⟨d, hd⟩ := Decimal.of_literal_widen hparse (by decide : 0 < 20) hscale hlt (Nat.zero_le _) hps
        (Nat.zero_le _) hdec.1 hdec.2
      exact reads_decimal hd
  | @decimal l p s hl hpos hscale hlt =>
    rcases within_decimal hw hplain ht with rfl | rfl | ⟨p', s', rfl, hwhole, hs⟩ <;>
      obtain rfl := Option.some.inj hu
    · exact reads_string _
    · exact reads_double _
    · have hdec := plain_decimal.mp ht
      obtain ⟨d, hd⟩ := Decimal.of_literal_widen hl hpos hscale hlt (plain_decimal.mp hplain).1 hwhole hs
        hdec.1 hdec.2
      exact reads_decimal hd
  | double =>
    rcases within_double hw ht with rfl | rfl <;> obtain rfl := Option.some.inj hu
    · exact reads_string _
    · exact reads_double _

theorem string_reads (s : String) (ht : t.Plain) (hw : Within (typeOf o (.str s)) t)
    (hu : t.canonical? = some u) : Reads o u (.str s) := by
  have hspec : StringType o s (typeOf o (.str s)) := string_type s
  generalize typeOf o (.str s) = a at hw hspec
  cases hspec with
  | null hs hnull =>
    by_cases hstring : u = .string
    · rw [hstring]
      exact reads_string _
    · refine reads_null ?_
      rw [isNullFor, hs, hnull, canonical_resolve ht hu]
      simpa using hstring
  | date hdays hmin hmax hmicros hwritable =>
    rcases within_date hw ht with rfl | rfl | rfl <;> obtain rfl := Option.some.inj hu
    · exact reads_string _
    · exact reads_date hdays hmin hmax
    · exact reads_timestamp hmicros hwritable.1 hwritable.2
  | timestamp hmicros hwritable =>
    rcases within_timestamp hw ht with rfl | rfl <;> obtain rfl := Option.some.inj hu
    · exact reads_string _
    · exact reads_timestamp hmicros hwritable.1 hwritable.2
  | string =>
    obtain rfl := within_string hw ht
    obtain rfl := Option.some.inj hu
    exact reads_string _

theorem members_read {members : List (String × Json)} {gs : List Field}
    (ih : ∀ m ∈ members, ∀ t u, t.Plain → Within (typeOf o m.2) t → t.canonical? = some u → Reads o u m.2)
    (hn : (members.map Prod.fst).Nodup) (hg : Plain (.struct gs))
    (hw : Within (.struct (typeOfMembers o members)) (.struct gs)) {f : Field}
    (hf : f ∈ canonicalFields gs) (hv : Json.member? members f.name = some v) : Reads o f.type v := by
  have hregular := (plain_struct.mp hg).1
  obtain ⟨t, ht, hu⟩ := canonical_field_type hregular hf
  have hmem := Json.mem_of_member hv
  have htype := type_of_members_type (o := o) hn hmem
  obtain ⟨t', ht', hwithin⟩ := hw.field (plain_struct.mp (type_of_members_plain members)).1 hregular htype
  obtain rfl := Option.some.inj (ht.symm.trans ht')
  exact ih _ hmem t f.type (plain_field hg ht) hwithin hu

/-- A tree is readable as the canonical form of every type above its own. -/
theorem reads_of_within (h : Json.Settled v) (ht : t.Plain) (hw : Within (typeOf o v) t)
    (hu : t.canonical? = some u) : Reads o u v := by
  induction v using Json.induct generalizing t u with
  | null => exact reads_null rfl
  | bool b =>
    rcases within_boolean hw ht with rfl | rfl <;> obtain rfl := Option.some.inj hu
    · exact reads_string _
    · exact reads_boolean b
  | num literal =>
    cases h with
    | num n => exact number_reads n ht hw hu
  | str s => exact string_reads s ht hw hu
  | arr items ih =>
    cases h with
    | arr hitems =>
      have hplain := type_of_items_plain (o := o) items (show Plain .null from trivial)
      rcases within_array hw hplain ht with rfl | ⟨e, n, rfl, he⟩
      · obtain rfl := Option.some.inj hu
        exact reads_string _
      · obtain ⟨e', he', rfl⟩ := Option.map_eq_some_iff.mp hu
        refine reads_array fun v hv => ?_
        have hv' := item_within (o := o) (show Plain .null from trivial) hv
        exact ih v hv (hitems v hv) (plain_array.mp ht)
          (within_trans (type_of_plain v) hplain (plain_array.mp ht) hv' he) he'
  | obj members ih =>
    cases h with
    | obj hn hmembers =>
      rcases within_struct hw (type_of_members_plain members) ht with rfl | ⟨gs, rfl⟩
      · obtain rfl := Option.some.inj hu
        exact reads_string _
      · obtain ⟨rfl, -⟩ := canonical_struct hu
        exact reads_struct fun f hf v hv => members_read
          (fun m hm t u ht hw hu => ih m hm (hmembers m hm) ht hw hu) hn ht hw hf hv

/-- Widening keeps a token readable: what the type of a token is merged with, the token is read as the canonical form of
the outcome, to a value that can be written. Every token of a text is settled. -/
theorem widened_type_reads (h : Json.Settled v) (ht : t.Plain) (hu : (merge (typeOf o v) t).canonical? = some u) :
    ∃ x, value o u v = .ok x ∧ Writes u x := by
  have hv := type_of_plain (o := o) v
  exact reads_of_within h (merge_plain hv ht) (within_merge_left hv ht) hu

/-- A number beyond the longs and an array of small ones, merged with decimals that have too few whole digits. -/
theorem widened_decimals_read :
    let t : DataType := .struct [⟨"id", .decimal 10 2, true⟩, ⟨"m", .array (.decimal 5 2) true, true⟩]
    let u : DataType := .struct [⟨"id", .decimal 22 2, true⟩, ⟨"m", .array (.decimal 22 2) true, true⟩]
    let v : Json := .obj [("id", .num "12345678901234567890"), ("m", .arr [.num "1"])]
    Json.Settled v ∧ t.Plain ∧ (merge (typeOf {} v) t).canonical? = some u ∧
      ∃ x, value {} u v = .ok x ∧ Writes u x := by
  intro t u v
  have h : Json.Settled v := by
    refine .obj (by decide) ?_
    simp only [List.forall_mem_cons]
    refine ⟨?_, .arr ?_, by simp⟩
    · exact .num ⟨false, "12345678901234567890".toList, [], none, by decide, by decide, rfl, by simp⟩
    · simpa using .num ⟨false, ['1'], [], none, by decide, by decide, rfl, by simp⟩
  have ht : t.Plain := by
    refine plain_struct.mpr ⟨⟨by decide, by decide⟩, ?_⟩
    simp [maxPrecision]
  have hu : (merge (typeOf {} v) t).canonical? = some u := by decide
  exact ⟨h, ht, hu, widened_type_reads h ht hu⟩

theorem schema_of_struct {gs : List Field} {s : Schema} (h : schemaOfRoot o (.struct gs) = .ok s) :
    s.fields = canonicalFields gs := by
  rw [schema_of_root_eq] at h
  exact (Schema.of_fields_ok_iff.mp h).1

theorem within_root {a b : DataType} (ha : a.Plain) (has : a.family = .struct)
    (h : mergeElements o a b = b) : ∃ gs, b = .struct gs ∧ Within a b := by
  have hbn : b ≠ .null := by
    rintro rfl
    rw [merge_elements_null] at h
    exact ne_null_of_struct has h
  rw [merge_elements_eq (ne_null_of_struct has) hbn, if_pos has] at h
  split at h
  · next hbs =>
    cases b <;> simp [DataType.family] at hbs
    exact ⟨_, rfl, h⟩
  · next hbs =>
    have hfam := merge_struct_family ha (corrupt_type_plain (o := o)) has corrupt_type_cases
    rw [h] at hfam
    contradiction

theorem row_items_type {seen : DataType} (hs : seen.Plain) (hseen : seen = .null ∨ seen.family = .struct)
    {items : List Json} (h : items.all isRowToken = true) :
    typeOfItems o seen items = .null ∨ (typeOfItems o seen items).family = .struct := by
  induction items generalizing seen with
  | nil => exact hseen
  | cons v vs ih =>
    rw [List.all_cons, Bool.and_eq_true] at h
    have hv := type_of_plain (o := o) v
    refine ih (merge_plain hs hv) ?_ h.2
    cases v <;> simp [isRowToken] at h
    · rw [typeOf, merge_null]
      exact hseen
    · rcases hseen with rfl | hfam
      · rw [null_merge]
        exact Or.inr rfl
      · exact Or.inr (merge_struct_family hs hv hfam (Or.inr rfl))

theorem root_above {records : List String} {text : String} (hm : text ∈ records) :
    ∃ root : RootType o, mergeAllRoots o (records.map (typeOfRecord o)) = root.type ∧
      mergeElements o (elementType (typeOfRecord o text)) root.type = root.type := by
  refine ⟨records.toFinset.sup (RootType.ofRecord o), merge_all_roots_sup records, ?_⟩
  have hle : RootType.ofRecord o text ≤ records.toFinset.sup (RootType.ofRecord o) :=
    Finset.le_sup (List.mem_toFinset.mpr hm)
  exact RootType.le_iff.mp hle

theorem object_rows {root : RootType o} {s : Schema} (hs : schemaOfRoot o root.type = .ok s)
    {members : List (String × Json)} (hv : Json.Settled (.obj members)) {gs : List Field}
    (hgs : root.type = .struct gs) (hw : Within (typeOf o (.obj members)) root.type) :
    ∃ row, fields o s.fields members = .ok row ∧ WritesRow s row := by
  rw [hgs] at hs hw
  have hplain : Plain (.struct gs) := hgs ▸ root.plain
  have hfields := schema_of_struct hs
  cases hv with
  | obj hn hmembers =>
    have hreads : ∀ f ∈ s.fields, ∀ v, Json.member? members f.name = some v → Reads o f.type v :=
      fun f hf v hv => members_read
        (fun m hm t u ht hw hu => reads_of_within (hmembers m hm) ht hw hu) hn hplain hw (hfields ▸ hf) hv
    obtain ⟨row, hrow, hlen, htokens⟩ := fields_read hreads
    exact ⟨row, hrow, writes_row hlen htokens⟩

theorem row_item_within {root : RootType o} {items : List Json} (hrows : items.all isRowToken = true)
    (habove : mergeElements o (elementType (typeOf o (.arr items))) root.type = root.type)
    {members : List (String × Json)} (hv : .obj members ∈ items) :
    ∃ gs, root.type = .struct gs ∧ Within (typeOf o (.obj members)) root.type := by
  have hnull : Plain .null := trivial
  have hplain := type_of_items_plain (o := o) items hnull
  have hitem := item_within (o := o) hnull hv
  have hstruct : (typeOfItems o .null items).family = .struct := by
    refine (row_items_type hnull (Or.inl rfl) hrows).resolve_left fun hn => ?_
    exact hitem.ne_null (by simp [typeOf]) hn
  have helement : elementType (typeOf o (.arr items)) = typeOfItems o .null items := by
    rw [typeOf, elementType, element_type_of_flat (by simp [hstruct])]
  rw [helement] at habove
  obtain ⟨gs, hgs, hwithin⟩ := within_root hplain hstruct habove
  exact ⟨gs, hgs, within_trans (type_of_plain _) hplain root.plain hitem hwithin⟩

theorem array_rows {root : RootType o} {s : Schema} (hs : schemaOfRoot o root.type = .ok s)
    {items : List Json} (hv : Json.Settled (.arr items)) (hrows : items.all isRowToken = true)
    (habove : mergeElements o (elementType (typeOf o (.arr items))) root.type = root.type) :
    ∃ rows, elements s o items = .ok rows ∧ ∀ row ∈ rows, WritesRow s row := by
  cases hv with
  | arr hitems =>
    refine map_m_exists fun members hmem => ?_
    obtain ⟨v, hv, hobj⟩ := List.mem_filterMap.mp hmem
    obtain rfl : v = .obj members := by
      cases v <;> simp_all
    obtain ⟨gs, hgs, hwithin⟩ := row_item_within hrows habove hv
    exact object_rows hs (hitems _ hv) hgs hwithin

/-- Every record of a collection decodes under its schema, to rows that encode. -/
theorem infer_schema_sound (hs : Options.samplingLimit.less o.samplingRatio = true) {records : List String}
    {s : Schema} (h : inferSchema o records = .ok s) {text : String} (hm : text ∈ records) :
    ∃ rows, record s o text = .ok rows ∧ ∀ row ∈ rows, WritesRow s row := by
  rw [infer_schema_all (validate_of_infer h) hs] at h
  obtain ⟨root, hroot, habove⟩ := root_above (o := o) hm
  rw [hroot] at h
  unfold record
  cases hv : Json.ofText? text with
  | none => exact ⟨_, rfl, corrupt_rows_write s text⟩
  | some v =>
    have hsettled := Json.of_text_settled hv
    have htype : typeOfRecord o text = typeOf o v := by rw [typeOfRecord, hv]
    rw [htype] at habove
    cases v with
    | null => exact ⟨[], rfl, by simp⟩
    | bool b => exact ⟨_, rfl, corrupt_rows_write s text⟩
    | num literal => exact ⟨_, rfl, corrupt_rows_write s text⟩
    | str t => exact ⟨_, rfl, corrupt_rows_write s text⟩
    | arr items =>
      dsimp only
      split
      · next hrows => exact array_rows h hsettled hrows habove
      · exact ⟨_, rfl, corrupt_rows_write s text⟩
    | obj members =>
      obtain ⟨gs, hgs, hwithin⟩ := within_root (type_of_plain _) rfl habove
      obtain ⟨row, hrow, hwrites⟩ := object_rows h hsettled hgs (hgs ▸ hwithin)
      exact ⟨[row], by simp [hrow, Except.map], by simpa using hwrites⟩

theorem infer_schema_sound_default :
    let records := ["\x7b\"a\":1,\"b\":12345678901234567890\x7d", "[\x7b\"a\":2.5\x7d,null]", "oops"]
    let s : Schema :=
      ⟨[⟨"_corrupt_record", .string, true⟩, ⟨"a", .double, true⟩, ⟨"b", .decimal 20 0, true⟩], rfl⟩
    Options.samplingLimit.less ({} : Options).samplingRatio = true ∧ inferSchema {} records = .ok s ∧
      ∀ text ∈ records, ∃ rows, record s {} text = .ok rows ∧ ∀ row ∈ rows, WritesRow s row := by
  intro records s
  have h : inferSchema {} records = .ok s := by
    rw [infer_schema_all default_valid default_unsampled]
    decide +kernel
  exact ⟨default_unsampled, h, fun text hm => infer_schema_sound default_unsampled h hm⟩

end TypedRecords.Inference
