import TypedRecords.Proofs.Row.Typed
/-!
# Rows that can be written

Dates and timestamps cover whole machine words, and their texts only the years of the calendar. A well typed value
can be written exactly when every date and every timestamp in it has a text, and this is all that can fail for a
decoded row.
-/

namespace TypedRecords

namespace Value

inductive Part (x : Value) : Value → Prop where
  | whole : Part x x
  | item {items v} : v ∈ items → Part x v → Part x (.array items)
  | entry {entries e} : e ∈ entries → Part x e.2 → Part x (.map entries)
  | field {row v} : v ∈ row → Part x v → Part x (.struct row)

def Dated : Value → Prop
  | .date days => Calendar.minDay ≤ days.toInt ∧ days.toInt ≤ Calendar.maxDay
  | .timestamp micros => Calendar.Writable micros.toInt
  | _ => True

def AllDated (v : Value) : Prop := ∀ x, Part x v → x.Dated

variable {v : Value} {items : List Value} {entries : List (String × Value)} {p : Value → Prop}

section Parts

theorem forall_part_array (h : p (.array items)) :
    (∀ x, Part x (.array items) → p x) ↔ ∀ v ∈ items, ∀ x, Part x v → p x := by
  constructor
  · intro hall v hv x hx
    exact hall x (.item hv hx)
  · intro hall x hx
    cases hx with
    | whole => exact h
    | item hv hx => exact hall _ hv x hx

theorem forall_part_map (h : p (.map entries)) :
    (∀ x, Part x (.map entries) → p x) ↔ ∀ e ∈ entries, ∀ x, Part x e.2 → p x := by
  constructor
  · intro hall e he x hx
    exact hall x (.entry he hx)
  · intro hall x hx
    cases hx with
    | whole => exact h
    | entry he hx => exact hall _ he x hx

theorem forall_part_struct (h : p (.struct items)) :
    (∀ x, Part x (.struct items) → p x) ↔ ∀ v ∈ items, ∀ x, Part x v → p x := by
  constructor
  · intro hall v hv x hx
    exact hall x (.field hv hx)
  · intro hall x hx
    cases hx with
    | whole => exact h
    | field hv hx => exact hall _ hv x hx

def IsLeaf (v : Value) : Prop := ∀ x, Part x v → x = v

theorem IsLeaf.forall_part (h : v.IsLeaf) : (∀ x, Part x v → p x) ↔ p v := by
  constructor
  · intro hall
    exact hall v .whole
  · intro hv x hx
    rwa [h x hx]

end Parts

theorem all_dated_array : AllDated (.array items) ↔ ∀ v ∈ items, v.AllDated := forall_part_array trivial

theorem all_dated_map : AllDated (.map entries) ↔ ∀ e ∈ entries, e.2.AllDated := forall_part_map trivial

theorem all_dated_struct : AllDated (.struct items) ↔ ∀ v ∈ items, v.AllDated := forall_part_struct trivial

theorem IsLeaf.all_dated (h : v.IsLeaf) : v.AllDated ↔ v.Dated := h.forall_part

end Value

namespace Encode

variable {o : Options} {t : DataType} {x : Value} {fs : List Field} {row : List Value}

/-- A null is left out of a row, but it could be written as well. -/
theorem fields_ok_iff : (∃ members, fields fs row = .ok members) ↔
    ∀ p ∈ fs.zip row, ∃ token, value p.1.type p.2 = .ok token := by
  induction fs generalizing row with
  | nil => simp [fields]
  | cons f fs ih =>
    obtain ⟨name, t, n⟩ := f
    cases row with
    | nil => simp [fields]
    | cons v row =>
      rw [List.zip_cons_cons, List.forall_mem_cons, ← ih, fields]
      by_cases hnull : v.isNull = true
      · have hvalue : ∃ token, value t v = .ok token := by
          unfold value
          exact ⟨.null, if_pos hnull⟩
        rw [if_pos hnull]
        exact ⟨fun h => ⟨hvalue, h⟩, And.right⟩
      · rw [if_neg hnull]
        cases value t v with
        | error e => simp [bind, Except.bind]
        | ok token => simp only [bind, Except.bind, map_ok_iff, Except.ok.injEq, exists_eq', true_and]

theorem value_array_ok_iff {e : DataType} {n : Bool} {items : List Value} :
    (∃ token, value (.array e n) (.array items) = .ok token) ↔
      ∀ v ∈ items, ∃ token, value e v = .ok token := by
  rw [← map_m_ok_iff, value]
  exact map_ok_iff

theorem value_map_ok_iff {w : DataType} {n : Bool} {entries : List (String × Value)} :
    (∃ token, value (.map w n) (.map entries) = .ok token) ↔
      ∀ e ∈ entries, ∃ token, value w e.2 = .ok token := by
  have hentry : (∀ e ∈ entries, ∃ token, value w e.2 = .ok token) ↔
      ∀ e ∈ entries, ∃ m, (value w e.2).map (e.1, ·) = .ok m :=
    forall₂_congr fun e _ => map_ok_iff.symm
  rw [hentry, ← map_m_ok_iff, value]
  exact map_ok_iff

theorem value_struct_ok_iff (hlen : row.length = fs.length) :
    (∃ token, value (.struct fs) (.struct row) = .ok token) ↔
      ∀ p ∈ fs.zip row, ∃ token, value p.1.type p.2 = .ok token := by
  rw [← fields_ok_iff, value]
  simp only [Value.isNull, Bool.false_eq_true, if_false, hlen, if_true]
  exact map_ok_iff

theorem value_ok_iff (h : WellTyped o t x) : (∃ token, value t x = .ok token) ↔ x.AllDated := by
  have hleaf {t : DataType} {v : Value} {token : Json} (hv : value t v = .ok token) (hv' : v.IsLeaf) (hd : v.Dated) :
      (∃ token, value t v = .ok token) ↔ v.AllDated :=
    ⟨fun _ => hv'.all_dated.mpr hd, fun _ => ⟨token, hv⟩⟩
  induction h with
  | null t =>
    have hnull : value t .null = .ok .null := by
      unfold value
      rfl
    exact hleaf hnull (fun y hy => by cases hy; rfl) trivial
  | named _ ih =>
    rw [value_alias]
    exact ih
  | boolean | byte | short | integer | long | float | double | decimal | string | binary =>
    exact hleaf rfl (fun y hy => by cases hy; rfl) trivial
  | date days =>
    have hdate : value .date (.date days) = (date days.toInt).map .str := rfl
    have hself : (Value.date days).IsLeaf := fun y hy => by cases hy; rfl
    rw [hdate, map_ok_iff, date_ok_iff, hself.all_dated]
    rfl
  | timestamp micros =>
    have htimestamp : value .timestamp (.timestamp micros) = (timestamp micros.toInt).map .str := rfl
    have hself : (Value.timestamp micros).IsLeaf := fun y hy => by cases hy; rfl
    rw [htimestamp, map_ok_iff, timestamp_ok_iff, hself.all_dated]
    rfl
  | array _ ih =>
    rw [value_array_ok_iff, Value.all_dated_array]
    exact forall₂_congr ih
  | map _ _ ih =>
    rw [value_map_ok_iff, Value.all_dated_map]
    exact forall₂_congr ih
  | @struct fs row hlen _ ih =>
    rw [value_struct_ok_iff hlen, Value.all_dated_struct]
    constructor
    · intro h v hv
      rw [← List.map_snd_zip (Nat.le_of_eq hlen)] at hv
      obtain ⟨p, hp, rfl⟩ := List.mem_map.mp hv
      exact (ih p hp).mp (h p hp)
    · intro h p hp
      exact (ih p hp).mpr (h p.2 (List.of_mem_zip hp).2)

theorem row_ok_iff {s : Schema} {row : Row} :
    (∃ text, Encode.row s row = .ok text) ↔ ∃ token, object s row = .ok token :=
  map_ok_iff

end Encode

namespace Decode

variable {o : Options} {s : Schema} {row : Row} {rows : List Row}

/-- A decoded row can be written exactly when every date in it is a day of the calendar and every timestamp is an
instant on such a day. -/
theorem encode_decoded_iff {text : String} (h : record s o text = .ok rows) (hr : row ∈ rows) :
    (∃ out, Encode.row s row = .ok out) ↔ ∀ x, Value.Part x (.struct row) → x.Dated := by
  have htyped := record_typed h row hr
  rw [Encode.row_ok_iff]
  exact Encode.value_ok_iff htyped

/-- The last day of the calendar, in an array. -/
theorem encode_decoded_last_day :
    let s : Schema := ⟨[⟨"days", .array .date true, true⟩], rfl⟩
    let row : Row := [.array [.date 95026236]]
    record s {} (Json.obj [("days", .arr [.str "95026236"])]).compact = .ok [row] ∧ row ∈ [row] ∧
      ∃ out, Encode.row s row = .ok out := by
  intro s row
  have hformed (p : List String → Prop) (hp : p ["days"]) : Json.Formed p (.obj [("days", .arr [.str "95026236"])]) :=
    .obj hp (by simpa using .arr (by simpa using .str _))
  have htext := Json.of_text_compact (hformed _ (by decide)) (hformed _ (by decide)) (by decide)
  have h : record s {} (Json.obj [("days", .arr [.str "95026236"])]).compact = .ok [row] := by
    rw [record, htext]
    rfl
  refine ⟨h, List.mem_singleton_self row, (encode_decoded_iff h (List.mem_singleton_self row)).mpr ?_⟩
  have hday : (Value.date 95026236).AllDated := by
    intro x hx
    cases hx
    exact ⟨by decide, by decide⟩
  have hdays : (Value.array [.date 95026236]).AllDated := Value.all_dated_array.mpr (by simpa using hday)
  exact Value.all_dated_struct.mpr (by simpa [row] using hdays)

/-- A day beyond the calendar is read and has no text. -/
theorem far_date_unwritable :
    let s : Schema := ⟨[⟨"d", .date, true⟩], rfl⟩
    let row : Row := [.date 2147483647]
    record s {} (Json.obj [("d", .num "2147483647")]).compact = .ok [row] ∧
      Encode.row s row = .error (.unencodable "date 2147483647" "date") := by
  intro s row
  have hformed (p : List String → Prop) (hp : p ["d"]) : Json.Formed p (.obj [("d", .num "2147483647")]) :=
    .obj hp (by simpa using .num ⟨false, "2147483647".toList, [], none, by decide, by decide, rfl, by simp⟩)
  have htext := Json.of_text_compact (hformed _ (by decide)) (hformed _ (by decide)) (by decide)
  constructor
  · rw [record, htext]
    rfl
  · rfl

end Decode

end TypedRecords
