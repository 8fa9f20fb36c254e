import TypedRecords.Proofs.Inference.Reserved
import TypedRecords.Proofs.Row.Typed
/-!
# Unreadable records leave the others alone

Putting unreadable records among others adds the corrupt column to the schema and changes nothing else, as long as no
record stores anything under its name: the other fields stay, and so do their values in every row.
-/

namespace TypedRecords

namespace DataType

variable {name : String} {t : DataType} {fs : List Field}

theorem other_fields_enter {combine : DataType → DataType → DataType} :
    otherFields name (enterField combine name t fs) = otherFields name fs := by
  induction fs with
  | nil => simp [enterField, otherFields]
  | cons g gs ih =>
    rw [enterField]
    split
    · next hg => simp [otherFields, hg]
    · split
      · simp [otherFields]
      · simp only [otherFields, List.filter_cons] at ih ⊢
        rw [ih]

theorem merge_fields_column (h : Regular fs) :
    mergeFields merge fs [⟨name, t, true⟩] = enterField merge name t fs := by
  have hleft : enterFields (fun _ u => u) fs [] = fs := by
    refine (enter_fields_regular regular_nil).ext h ?_
    intro m
    rw [enter_fields_type h.distinct regular_nil, field_type_nil, Option.merge_none_left]
  rw [mergeFields, hleft]
  rfl

end DataType

namespace Inference

open DataType Decode

variable {o : Options} {name : String}

def corruptRoot (o : Options) : RootType o :=
  ⟨corruptType o, corrupt_type_plain, by
    rcases corrupt_type_cases (o := o) with h | h
    · simp [h, family]
    · simp [h]⟩

theorem of_record_unreadable {text : String} (hv : Json.ofText? text = none) :
    RootType.ofRecord o text = corruptRoot o := by
  refine RootType.ext ?_
  have htype : (RootType.ofRecord o text).type = elementType (corruptType o) := by
    rw [← type_of_unreadable hv]
    rfl
  rw [htype]
  exact element_type_of_flat (corruptRoot o).flat

theorem sup_corrupt_type (hc : o.corruptColumn = some name) (root : RootType o) :
    (root ⊔ corruptRoot o).type = .struct (enterField merge name .string (structFields root.type)) := by
  have hcorrupt := corrupt_type_some hc
  have hstruct : (corruptType o).family = .struct := by rw [hcorrupt, family]
  have hcolumn : (corruptRoot o).type = corruptType o := rfl
  rw [RootType.sup_type, hcolumn]
  by_cases hnull : root.type = .null
  · rw [hnull, null_merge_elements, hcorrupt]
    rfl
  rw [merge_elements_eq hnull (ne_null_of_struct hstruct), if_pos hstruct]
  by_cases hroot : root.type.family = .struct
  · rw [if_pos hroot, hcorrupt]
    have hregular := struct_fields_regular root.plain
    cases ht : root.type with
    | struct fs =>
      rw [ht, structFields] at hregular
      rw [merge_struct_regular hregular (regular_nil.cons (by simp)), merge_fields_column hregular, structFields]
    | _ => simp [ht, family] at hroot
  -- Beside the column, a root of another shape is a corrupt record itself.
  · rw [if_neg hroot, if_pos hstruct, merge_self, hcorrupt, struct_fields_of_family hroot]
    rfl

inductive Interspersed : List String → List String → Prop where
  | nil : Interspersed [] []
  | keep (text) {records more} : Interspersed records more → Interspersed (text :: records) (text :: more)
  | insert {text records more} : Json.ofText? text = none → Interspersed records more →
      Interspersed records (text :: more)

namespace Interspersed

variable {records more : List String} {text : String}

theorem mem (h : Interspersed records more) (hm : text ∈ records) : text ∈ more := by
  induction h with
  | nil => exact hm
  | keep _ _ ih =>
    rcases List.mem_cons.mp hm with rfl | hm
    · exact List.mem_cons_self
    · exact List.mem_cons_of_mem _ (ih hm)
  | insert _ _ ih => exact List.mem_cons_of_mem _ (ih hm)

theorem mem_or (h : Interspersed records more) (hm : text ∈ more) :
    text ∈ records ∨ Json.ofText? text = none := by
  induction h with
  | nil => exact Or.inl hm
  | keep _ _ ih =>
    rcases List.mem_cons.mp hm with rfl | hm
    · exact Or.inl List.mem_cons_self
    · exact (ih hm).imp_left (List.mem_cons_of_mem _)
  | insert hv _ ih =>
    rcases List.mem_cons.mp hm with rfl | hm
    · exact Or.inr hv
    · exact ih hm

theorem root (h : Interspersed records more) :
    more.toFinset.sup (RootType.ofRecord o) = records.toFinset.sup (RootType.ofRecord o) ∨
      more.toFinset.sup (RootType.ofRecord o) = records.toFinset.sup (RootType.ofRecord o) ⊔ corruptRoot o := by
  induction h with
  | nil => exact Or.inl rfl
  | keep text _ ih =>
    rw [List.toFinset_cons, List.toFinset_cons, Finset.sup_insert, Finset.sup_insert]
    rcases ih with ih | ih
    · exact Or.inl (by rw [ih])
    · exact Or.inr (by rw [ih, sup_assoc])
  | insert hv _ ih =>
    -- One more unreadable record is absorbed by those before.
    rw [List.toFinset_cons, Finset.sup_insert, of_record_unreadable hv, sup_comm]
    rcases ih with ih | ih
    · exact Or.inr (by rw [ih])
    · exact Or.inr (by rw [ih, sup_assoc, sup_idem])

theorem other_fields (h : Interspersed records more) (hc : o.corruptColumn = some name) :
    otherFields name (structFields (more.toFinset.sup (RootType.ofRecord o)).type) =
      otherFields name (structFields (records.toFinset.sup (RootType.ofRecord o)).type) := by
  rcases h.root (o := o) with hroot | hroot
  · rw [hroot]
  · rw [hroot, sup_corrupt_type hc, structFields, other_fields_enter]

end Interspersed

section Rows

variable {s : Schema} {text : String} {members : List (String × Json)} {row : Row} {fs : List Field}

def otherValues (name : String) (fs : List Field) (row : Row) : List (Field × Value) :=
  (fs.zip row).filter fun p => p.1.name != name

theorem fields_length (h : fields o fs members = .ok row) : row.length = fs.length := by
  induction fs generalizing row with
  | nil =>
    cases h
    rfl
  | cons f fs ih =>
    obtain ⟨y, rest, rfl, hrest, -⟩ := fields_cons_inv h
    rw [List.length_cons, List.length_cons, ih hrest]

/-- Each value is read on its own, so the other fields have the same values without the field. -/
theorem fields_other (name : String) (h : fields o fs members = .ok row) :
    ∃ others, fields o (otherFields name fs) members = .ok others ∧
      otherValues name fs row = (otherFields name fs).zip others := by
  induction fs generalizing row with
  | nil =>
    cases h
    exact ⟨[], rfl, rfl⟩
  | cons f fs ih =>
    obtain ⟨y, rest, rfl, hrest, hy⟩ := fields_cons_inv h
    obtain ⟨others, hothers, hvalues⟩ := ih hrest
    by_cases hname : f.name = name
    · refine ⟨others, ?_, ?_⟩
      · simpa [otherFields, hname] using hothers
      · simpa [otherFields, otherValues, hname] using hvalues
    · have hkeep : otherFields name (f :: fs) = f :: otherFields name fs := by simp [otherFields, hname]
      have hvalue : otherValues name (f :: fs) (y :: rest) = (f, y) :: otherValues name fs rest := by
        simp [otherValues, hname]
      refine ⟨y :: others, ?_, by rw [hkeep, hvalue, hvalues, List.zip_cons_cons]⟩
      obtain ⟨n, t, nullable⟩ := f
      rw [hkeep, fields]
      rcases hy with ⟨hm, rfl⟩ | ⟨v, hm, hv⟩
      · rw [hm, hothers]
        rfl
      · simp only [hm, hv, hothers]
        rfl

theorem object_decodes {records : List String} (hm : text ∈ records)
    (hv : Json.ofText? text = some (.obj members))
    (h : schemaOfRoot o (mergeAllRoots o (records.map (typeOfRecord o))) = .ok s) :
    ∃ row, fields o s.fields members = .ok row ∧ record s o text = .ok [row] := by
  obtain ⟨root, hroot, habove⟩ := root_above (o := o) hm
  rw [hroot] at h
  have htype : typeOfRecord o text = typeOf o (.obj members) := by rw [typeOfRecord, hv]
  rw [htype] at habove
  obtain ⟨gs, hgs, hwithin⟩ := within_root (type_of_plain _) rfl habove
  obtain ⟨row, hrow, -⟩ := object_rows h (Json.of_text_settled hv) hgs (hgs ▸ hwithin)
  exact ⟨row, hrow, by simp [record, hv, hrow, Except.map]⟩

end Rows

/-- Where no row has a key of the corrupt column's name, unreadable records change nothing but that column. The
schema exists as before, it has the same other fields in the same order, and every object has the same values
there. -/
theorem unreadable_undisturbing (hv : o.validate = .ok ())
    (hs : Options.samplingLimit.less o.samplingRatio = true) (hc : o.corruptColumn = some name)
    {records more : List String}
    (hkeys : ∀ text ∈ records, ∀ v, Json.ofText? text = some v → KeysApart o name v)
    (hin : Interspersed records more) :
    ((∃ s, inferSchema o more = .ok s) ↔ ∃ s, inferSchema o records = .ok s) ∧
      ∀ s s', inferSchema o records = .ok s → inferSchema o more = .ok s' →
        otherFields name s.fields = otherFields name s'.fields ∧
          ∀ text ∈ records, ∀ members, Json.ofText? text = some (.obj members) →
            ∃ row row', record s o text = .ok [row] ∧ record s' o text = .ok [row'] ∧
              row.length = s.size ∧ row'.length = s'.size ∧
                otherValues name s.fields row = otherValues name s'.fields row' := by
  have hkeys' : ∀ text ∈ more, ∀ v, Json.ofText? text = some v → KeysApart o name v := by
    intro text hm v htext
    rcases hin.mem_or hm with hm | hnone
    · exact hkeys text hm v htext
    · rw [htext] at hnone
      cases hnone
  have hother := hin.other_fields hc
  rw [infer_schema_all hv hs, infer_schema_all hv hs]
  constructor
  · rw [merge_all_roots_sup, merge_all_roots_sup, schema_of_reserved (reserved_root hc hkeys'),
      schema_of_reserved (reserved_root hc hkeys), hother]
  · intro s s' h h'
    have hfields : otherFields name s.fields = otherFields name s'.fields := by
      rw [merge_all_roots_sup] at h h'
      rw [other_fields_of_root h, other_fields_of_root h', hother]
    refine ⟨hfields, ?_⟩
    intro text hm members htext
    obtain ⟨row, hrow, hrecord⟩ := object_decodes hm htext h
    obtain ⟨row', hrow', hrecord'⟩ := object_decodes (hin.mem hm) htext h'
    obtain ⟨others, hothers, hvalues⟩ := fields_other name hrow
    obtain ⟨others', hothers', hvalues'⟩ := fields_other name hrow'
    refine ⟨row, row', hrecord, hrecord', fields_length hrow, fields_length hrow', ?_⟩
    -- Without the column both rows are read by the same fields.
    rw [hfields, hothers'] at hothers
    rw [hvalues, hvalues', hfields, Except.ok.inj hothers]

/-- An unreadable record before an object moves its only column. -/
theorem unreadable_undisturbing_first :
    let object : List (String × Json) := [("a", .str "x")]
    let records := [(Json.obj object).compact]
    let more := ["oops", (Json.obj object).compact]
    let s : Schema := ⟨[⟨"a", .string, true⟩], rfl⟩
    let s' : Schema := ⟨[⟨"_corrupt_record", .string, true⟩, ⟨"a", .string, true⟩], rfl⟩
    ({} : Options).validate = .ok () ∧ Options.samplingLimit.less ({} : Options).samplingRatio = true ∧
      ({} : Options).corruptColumn = some "_corrupt_record" ∧
      (∀ text ∈ records, ∀ v, Json.ofText? text = some v → KeysApart {} "_corrupt_record" v) ∧
      Interspersed records more ∧ inferSchema {} records = .ok s ∧ inferSchema {} more = .ok s' ∧
      otherFields "_corrupt_record" s.fields = otherFields "_corrupt_record" s'.fields ∧
      ∃ row row', record s {} (Json.obj object).compact = .ok [row] ∧
        record s' {} (Json.obj object).compact = .ok [row'] ∧
        otherValues "_corrupt_record" s.fields row = otherValues "_corrupt_record" s'.fields row' := by
  intro object records more s s'
  have hformed (p : List String → Prop) (hp : p ["a"]) : Json.Formed p (.obj object) :=
    .obj hp (by simpa [object] using .str _)
  have htext := Json.of_text_compact (hformed _ (by decide)) (hformed _ (by decide)) (by decide)
  have h : inferSchema {} records = .ok s := by
    rw [infer_schema_all default_valid default_unsampled]
    decide +kernel
  have h' : inferSchema {} more = .ok s' := by
    rw [infer_schema_all default_valid default_unsampled]
    decide +kernel
  have hkeys : ∀ text ∈ records, ∀ v, Json.ofText? text = some v → KeysApart {} "_corrupt_record" v := by
    intro text hm v hv
    rw [List.mem_singleton.mp hm, htext] at hv
    obtain rfl := Option.some.inj hv
    intro members hrow
    cases hrow
    decide
  have hin : Interspersed records more := .insert (by cbv) (.keep _ .nil)
  obtain ⟨hfields, hrows⟩ := (unreadable_undisturbing default_valid default_unsampled rfl hkeys hin).2 s s' h h'
  obtain ⟨row, row', hrow, hrow', -, -, hvalues⟩ := hrows _ List.mem_cons_self object htext
  exact ⟨default_valid, default_unsampled, rfl, hkeys, hin, h, h', hfields, row, row', hrow, hrow', hvalues⟩

end Inference

end TypedRecords
