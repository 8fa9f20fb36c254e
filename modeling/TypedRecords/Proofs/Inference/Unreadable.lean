import TypedRecords.Proofs.Inference.Corrupt
/-!
# Unreadable records

A text that is no JSON value makes the corrupt column of the schema, whatever other records store under its name,
and decoding keeps the text there.
-/

namespace TypedRecords.Inference

open DataType Decode

variable {o : Options} {s : Schema} {name text : String} {records : List String}

theorem type_of_unreadable (hv : Json.ofText? text = none) : typeOfRecord o text = corruptType o := by
  rw [typeOfRecord, hv]

theorem corrupt_type_some (hc : o.corruptColumn = some name) : corruptType o = .struct [⟨name, .string, true⟩] := by
  rw [corruptType, hc]

theorem root_of_unreadable (hc : o.corruptColumn = some name) (hm : text ∈ records) (hv : Json.ofText? text = none) :
    ∃ gs, mergeAllRoots o (records.map (typeOfRecord o)) = .struct gs ∧ Plain (.struct gs) ∧
      Within (corruptType o) (.struct gs) := by
  obtain ⟨root, hroot, habove⟩ := root_above (o := o) hm
  have hcorrupt := corrupt_type_some hc
  have hstruct : (corruptType o).family = .struct := by rw [hcorrupt, family]
  have helement : elementType (typeOfRecord o text) = corruptType o := by
    rw [type_of_unreadable hv, element_type_of_flat (by simp [hstruct])]
  rw [helement] at habove
  obtain ⟨gs, hgs, hwithin⟩ := within_root corrupt_type_plain hstruct habove
  exact ⟨gs, hroot.trans hgs, hgs ▸ root.plain, hgs ▸ hwithin⟩

theorem corrupt_row_values {i size : Nat} (hi : i < size) (text : String) :
    let row := (Row.nulls size).put i (.string text)
    row.length = size ∧ row[i]? = some (.string text) ∧ ∀ j, j < size → j ≠ i → row[j]? = some .null := by
  intro row
  refine ⟨by simp [row, Row.put, Row.nulls], ?_, ?_⟩
  · simp [row, Row.put, Row.nulls, hi]
  · intro j hj hne
    simp [row, Row.put, Row.nulls, hj, hne.symm]

/-- Every unreadable record of a collection is kept in the corrupt column of its schema. -/
theorem unreadable_kept (hs : Options.samplingLimit.less o.samplingRatio = true) (hc : o.corruptColumn = some name)
    (h : inferSchema o records = .ok s) (hm : text ∈ records) (hv : Json.ofText? text = none) :
    ∃ i, s.indexOf? name = some i ∧ s.fields[i]? = some ⟨name, .string, true⟩ ∧
      ∃ row, record s o text = .ok [row] ∧ row.length = s.size ∧ row[i]? = some (.string text) ∧
        ∀ j, j < s.size → j ≠ i → row[j]? = some .null := by
  have hvalid := validate_of_infer h
  obtain ⟨gs, hroot, hplain, hwithin⟩ := root_of_unreadable hc hm hv
  rw [infer_schema_all hvalid hs, hroot] at h
  obtain ⟨i, hi, hfield, hindex⟩ := corrupt_index_of_within hvalid hc hplain h hwithin
  have hlt : i < s.size := (List.getElem?_eq_some_iff.mp hfield).1
  have hrecord : record s o text = .ok [(Row.nulls s.size).put i (.string text)] := by
    simp only [record, hv, corruptRows, hindex]
  exact ⟨i, hi, hfield, _, hrecord, corrupt_row_values hlt text⟩

/-- Another record stores an array under the name of the corrupt column. -/
theorem unreadable_kept_collision :
    let records := ["\x7b\"a\":1,\"_corrupt_record\":[1]\x7d", "oops"]
    let s : Schema := ⟨[⟨"_corrupt_record", .string, true⟩, ⟨"a", .long, true⟩], rfl⟩
    Options.samplingLimit.less ({} : Options).samplingRatio = true ∧
      ({} : Options).corruptColumn = some "_corrupt_record" ∧ inferSchema {} records = .ok s ∧
      "oops" ∈ records ∧ Json.ofText? "oops" = none ∧ record s {} "oops" = .ok [[.string "oops", .null]] := by
  intro records s
  have h : inferSchema {} records = .ok s := by
    rw [infer_schema_all default_valid default_unsampled]
    decide +kernel
  have hm : "oops" ∈ records := by simp [records]
  have hv : Json.ofText? "oops" = none := by cbv
  obtain ⟨i, hi, -, row, hrecord, hlen, hvalue, hnull⟩ := unreadable_kept default_unsampled rfl h hm hv
  obtain rfl : 0 = i := Option.some.inj hi
  obtain ⟨x, y, rfl⟩ := List.length_eq_two.mp hlen
  obtain rfl := Option.some.inj hvalue
  obtain rfl := Option.some.inj (hnull 1 (by decide) (by decide))
  exact ⟨default_unsampled, rfl, h, hm, hv, hrecord⟩

end TypedRecords.Inference
