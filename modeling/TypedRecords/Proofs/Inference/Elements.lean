import TypedRecords.Proofs.Inference.Soundness
import TypedRecords.Proofs.Json.RoundTrip
/-!
# Arrays of rows

A record that is an array of objects and nulls stands for its elements. Inference gives the schema that it gives for
the elements as records of their own, and decoding the array gives their rows one after the other.
-/

namespace TypedRecords.Inference

open DataType Decode

variable {o : Options} {A text : String} {texts : List String} {v : Json} {items : List Json}

abbrev ReadAs (texts : List String) (items : List Json) : Prop :=
  List.Forall₂ (fun text v => Json.ofText? text = some v) texts items

def RowType (t : DataType) : Prop := t = .null ∨ t.family = .struct

theorem row_type_of (h : isRowToken v = true) : RowType (typeOf o v) := by
  cases v with
  | null => exact Or.inl rfl
  | obj members => exact Or.inr rfl
  | _ => cases h

theorem RowType.flat {t : DataType} (h : RowType t) : t.family ≠ .array := by
  rcases h with rfl | h
  · simp [family]
  · simp [h]

/-- Between objects and nulls the inner merge and the one at the root are the same. -/
theorem RowType.merge {a b : DataType} (ha : RowType a) (hb : RowType b) :
    mergeElements o a b = DataType.merge a b := by
  rcases ha with rfl | ha
  · rw [null_merge_elements, null_merge]
  rcases hb with rfl | hb
  · rw [merge_elements_null, merge_null]
  · rw [merge_elements_eq (ne_null_of_struct ha) (ne_null_of_struct hb), if_pos ha, if_pos hb]

theorem RowType.sup {a b : RootType o} (ha : RowType a.type) (hb : RowType b.type) : RowType (a ⊔ b).type := by
  rw [RootType.sup_type, ha.merge hb]
  rcases ha with ha | ha
  · rw [ha, null_merge]
    exact hb
  · exact Or.inr (merge_struct_family a.plain b.plain ha hb)

theorem of_record_read (hv : Json.ofText? text = some v) :
    (RootType.ofRecord o text).type = elementType (typeOf o v) := by
  have htype : typeOfRecord o text = typeOf o v := by rw [typeOfRecord, hv]
  rw [← htype]
  rfl

theorem of_record_row (hv : Json.ofText? text = some v) (hrow : isRowToken v = true) :
    (RootType.ofRecord o text).type = typeOf o v := by
  rw [of_record_read hv, element_type_of_flat (row_type_of hrow).flat]

/-- Merging the items of an array one by one is joining the roots of the records that they are read from. -/
theorem items_sup (seen : RootType o) (hseen : RowType seen.type) (hread : ReadAs texts items)
    (hrows : items.all isRowToken = true) :
    typeOfItems o seen.type items = (seen ⊔ texts.toFinset.sup (RootType.ofRecord o)).type := by
  induction hread generalizing seen with
  | nil => simp [typeOfItems]
  | @cons text v texts items hv _ ih =>
    rw [List.all_cons, Bool.and_eq_true] at hrows
    have htype := of_record_row (o := o) hv hrows.1
    have hrow : RowType (RootType.ofRecord o text).type := by
      rw [htype]
      exact row_type_of hrows.1
    have hstep : DataType.merge seen.type (typeOf o v) = (seen ⊔ RootType.ofRecord o text).type := by
      rw [RootType.sup_type, hseen.merge hrow, htype]
    rw [typeOfItems, hstep, ih _ (hseen.sup hrow) hrows.2, List.toFinset_cons, Finset.sup_insert, sup_assoc]

theorem of_record_array (hA : Json.ofText? A = some (.arr items)) (hrows : items.all isRowToken = true)
    (hread : ReadAs texts items) :
    RootType.ofRecord o A = texts.toFinset.sup (RootType.ofRecord o) := by
  refine RootType.ext ?_
  have hitems := items_sup (⊥ : RootType o) (Or.inl rfl) hread hrows
  rw [bot_sup_eq, RootType.bot_type] at hitems
  rw [of_record_read hA, typeOf, elementType, hitems, element_type_of_flat (RootType.flat _)]

theorem merge_array_record (hA : Json.ofText? A = some (.arr items)) (hrows : items.all isRowToken = true)
    (hread : ReadAs texts items) (before after : List String) :
    mergeAllRoots o ((before ++ [A] ++ after).map (typeOfRecord o)) =
      mergeAllRoots o ((before ++ texts ++ after).map (typeOfRecord o)) := by
  have hsingle : [A].toFinset.sup (RootType.ofRecord o) = RootType.ofRecord o A := by simp
  simp only [merge_all_roots_sup, List.toFinset_append, Finset.sup_union, hsingle,
    of_record_array hA hrows hread]

theorem elements_null (s : Schema) (items : List Json) : elements s o (.null :: items) = elements s o items := rfl

theorem elements_object (s : Schema) (members : List (String × Json)) (items : List Json) :
    elements s o (.obj members :: items) =
      (fields o s.fields members).bind fun row => (elements s o items).map (row :: ·) := by
  unfold elements
  rw [List.filterMap_cons]
  dsimp only
  rw [List.mapM_cons]
  cases fields o s.fields members with
  | error e => rfl
  | ok row =>
    cases List.mapM (fields o s.fields) _ <;> rfl

theorem elements_records (s : Schema) (hread : ReadAs texts items) (hrows : items.all isRowToken = true) :
    elements s o items = (texts.mapM (record s o)).map List.flatten := by
  induction hread with
  | nil => rfl
  | @cons text v texts items hv _ ih =>
    rw [List.all_cons, Bool.and_eq_true] at hrows
    have ih := ih hrows.2
    rw [List.mapM_cons]
    cases v with
    | null =>
      have hrecord : record s o text = .ok [] := by rw [record, hv]
      rw [elements_null, ih, hrecord]
      cases texts.mapM (record s o) <;> rfl
    | obj members =>
      rw [elements_object, ih, record_object hv]
      cases fields o s.fields members with
      | error e => rfl
      | ok row => cases texts.mapM (record s o) <;> rfl
    | _ => cases hrows.1

/-- An array of objects and nulls is the same as its elements as separate records: wherever it stands in a collection,
the schema or the error is the same, and its rows are those of the elements in order, or the first error among them. -/
theorem array_record_elements (hv : o.validate = .ok ())
    (hs : Options.samplingLimit.less o.samplingRatio = true) (hA : Json.ofText? A = some (.arr items))
    (hrows : items.all isRowToken = true) (hread : ReadAs texts items) :
    (∀ before after, inferSchema o (before ++ [A] ++ after) = inferSchema o (before ++ texts ++ after)) ∧
      ∀ s o', record s o' A = (texts.mapM (record s o')).map List.flatten := by
  constructor
  · intro before after
    rw [infer_schema_all hv hs, infer_schema_all hv hs, merge_array_record hA hrows hread]
  · intro s o'
    have hrecord : record s o' A = elements s o' items := by simp only [record, hA, hrows, if_true]
    rw [hrecord, elements_records s hread hrows]

/-- Between a scalar record and an unreadable one, with an element that cannot be decoded. -/
theorem array_record_elements_mixed :
    let items : List Json := [.obj [("a", .bool true)], .null, .obj [("a", .str "x")]]
    let A := (Json.arr items).compact
    let texts := items.map Json.compact
    let s : Schema := ⟨[⟨"a", .boolean, true⟩], rfl⟩
    ({} : Options).validate = .ok () ∧ Options.samplingLimit.less ({} : Options).samplingRatio = true ∧
      Json.ofText? A = some (.arr items) ∧ items.all isRowToken = true ∧ ReadAs texts items ∧
      inferSchema {} (["7"] ++ [A] ++ ["oops"]) = inferSchema {} (["7"] ++ texts ++ ["oops"]) ∧
      record s {} A = (texts.mapM (record s {})).map List.flatten := by
  intro items A texts s
  have hformed (p : List String → Prop) (hp : p ["a"]) : ∀ v ∈ items, Json.Formed p v := by
    have hfirst : Json.Formed p (.obj [("a", .bool true)]) := .obj hp (by simpa using .bool true)
    have hlast : Json.Formed p (.obj [("a", .str "x")]) := .obj hp (by simpa using .str _)
    simpa [items] using ⟨hfirst, .null, hlast⟩
  have hA : Json.ofText? A = some (.arr items) :=
    Json.of_text_compact (.arr (hformed _ (by decide))) (.arr (hformed _ (by decide))) (by decide)
  have hread : ReadAs texts items := by
    rw [ReadAs, List.forall₂_map_left_iff, List.forall₂_same]
    intro v hv
    refine Json.of_text_compact (hformed _ (by decide) v hv) (hformed _ (by decide) v hv) ?_
    revert v
    decide
  obtain ⟨hinfer, hrecord⟩ := array_record_elements default_valid default_unsampled hA rfl hread
  exact ⟨default_valid, default_unsampled, hA, rfl, hread, hinfer ["7"] ["oops"], hrecord s {}⟩

end TypedRecords.Inference
