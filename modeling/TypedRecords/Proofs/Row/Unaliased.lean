import TypedRecords.Columnar.ColumnType
import TypedRecords.Proofs.Row.Typed
import TypedRecords.Proofs.Schema.Unaliased
/-!
# Aliases are transparent

Rows, texts and columns of a schema are those of the schema without its aliases. Only an error may tell them apart, by
the text of the type that it names.
-/

namespace TypedRecords

inductive Agrees (r : Error → Error → Prop) {α : Type} : Except Error α → Except Error α → Prop where
  | ok (x : α) : Agrees r (.ok x) (.ok x)
  | error {e e'} : r e e' → Agrees r (.error e) (.error e')

/-- The same error, or a token of one kind that cannot be read as either type. -/
inductive Error.SameFault : Error → Error → Prop where
  | same (e) : SameFault e e
  | undecodable (token target target') : SameFault (.undecodable token target) (.undecodable token target')

inductive Error.BothUnencodable : Error → Error → Prop where
  | unencodable (value declared declared') :
    BothUnencodable (.unencodable value declared) (.unencodable value declared')

namespace Agrees

variable {α β : Type} {r : Error → Error → Prop} {x y : Except Error α}

theorem refl (hr : ∀ e, r e e) (x : Except Error α) : Agrees r x x := by
  cases x with
  | ok x => exact .ok x
  | error e => exact .error (hr e)

theorem map (h : Agrees r x y) (f : α → β) : Agrees r (x.map f) (y.map f) := by
  cases h with
  | ok x => exact .ok (f x)
  | error h => exact .error h

theorem bind {f g : α → Except Error β} (h : Agrees r x y) (hfg : ∀ x, Agrees r (f x) (g x)) :
    Agrees r (x.bind f) (y.bind g) := by
  cases h with
  | ok x => exact hfg x
  | error h => exact .error h

theorem map_m {f g : α → Except Error β} (h : ∀ x, Agrees r (f x) (g x)) (xs : List α) :
    Agrees r (xs.mapM f) (xs.mapM g) := by
  induction xs with
  | nil => exact .ok []
  | cons x xs ih =>
    rw [List.mapM_cons, List.mapM_cons]
    exact (h x).bind fun y => ih.bind fun ys => .ok (y :: ys)

end Agrees

theorem DataType.unaliased_scalar {t : DataType} (ht : Decode.IsScalar t) : t.unaliased = t := by
  cases t <;> first | contradiction | rfl

namespace Decode

open DataType

variable {o : Options} {s : Schema} {fs : List Field}

theorem is_null_unaliased (t : DataType) (v : Json) : isNullFor o t.unaliased v = isNullFor o t v := by
  have hstring : (t.unaliased.resolve != .string) = (t.resolve != .string) := by
    rw [Bool.eq_iff_iff, bne_iff_ne, bne_iff_ne]
    exact not_congr (unaliased_resolve_string t)
  cases v <;> simp [isNullFor, hstring]

theorem fields_unaliased (ih : ∀ f ∈ fs, ∀ v, Agrees Error.SameFault (value o f.type v) (value o f.type.unaliased v))
    (members : List (String × Json)) :
    Agrees Error.SameFault (fields o fs members) (fields o (unaliasedFields fs) members) := by
  induction fs with
  | nil => exact .ok []
  | cons f fs ihf =>
    obtain ⟨name, t, nullable⟩ := f
    rw [List.forall_mem_cons] at ih
    rw [unaliasedFields, fields, fields]
    cases Json.member? members name with
    | none => exact (ihf ih.2).map _
    | some v => exact (ih.1 v).bind fun x => (ihf ih.2).map _

theorem value_unaliased (t : DataType) (v : Json) :
    Agrees Error.SameFault (value o t v) (value o t.unaliased v) := by
  induction t using DataType.induct generalizing v with
  | scalar t ht =>
    rw [unaliased_scalar ht]
    exact .refl .same (value o t v)
  | named name t ih =>
    rw [value_alias, unaliased]
    exact ih v
  | array e n ih =>
    have hnull := is_null_unaliased (o := o) (.array e n) v
    rw [unaliased] at hnull ⊢
    unfold value
    rw [hnull]
    split
    · exact .ok _
    · cases v with
      | arr items => exact (Agrees.map_m ih items).map _
      | obj members => exact (ih (.obj members)).map _
      | _ => exact .error (.undecodable _ _ _)
  | map w n ih =>
    have hnull := is_null_unaliased (o := o) (.map w n) v
    rw [unaliased] at hnull ⊢
    unfold value
    rw [hnull]
    split
    · exact .ok _
    · cases v with
      | obj members => exact (Agrees.map_m (fun m => (ih m.2).map _) members).map _
      | _ => exact .error (.undecodable _ _ _)
  | struct fs ih =>
    have hnull := is_null_unaliased (o := o) (.struct fs) v
    rw [unaliased] at hnull ⊢
    unfold value
    rw [hnull]
    split
    · exact .ok _
    · cases v with
      | obj members => exact (fields_unaliased ih members).map _
      | _ => exact .error (.undecodable _ _ _)

theorem corrupt_rows_unaliased (s : Schema) (text : String) :
    corruptRows s.unaliased o text = corruptRows s o text := by
  have hfields : s.unaliased.fields = s.fields.map fun f => ⟨f.name, f.type.unaliased, f.nullable⟩ :=
    unaliased_fields_eq s.fields
  have hindex : corruptIndex? s.unaliased o = corruptIndex? s o := by
    simp only [corruptIndex?, Schema.indexOf?, hfields, List.findIdx?_map, List.getElem?_map, Function.comp_def]
    refine Option.bind_congr fun name _ => Option.bind_congr fun i _ => ?_
    cases s.fields[i]? with
    | none => rfl
    | some f => exact if_congr (unaliased_resolve_string f.type) rfl rfl
  have hsize : s.unaliased.size = s.size := by rw [Schema.size, hfields, List.length_map, Schema.size]
  rw [corruptRows, hindex, hsize, corruptRows]

theorem record_unaliased (s : Schema) (text : String) :
    Agrees Error.SameFault (record s o text) (record s.unaliased o text) := by
  have hcorrupt : Agrees Error.SameFault (.ok (corruptRows s o text)) (.ok (corruptRows s.unaliased o text)) := by
    rw [corrupt_rows_unaliased]
    exact .ok _
  have hobject (members : List (String × Json)) :
      Agrees Error.SameFault (fields o s.fields members) (fields o s.unaliased.fields members) :=
    fields_unaliased (fun f _ v => value_unaliased f.type v) members
  unfold record
  cases Json.ofText? text with
  | none => exact hcorrupt
  | some v =>
    cases v with
    | null => exact .ok []
    | obj members => exact (hobject members).map _
    | arr items =>
      dsimp only
      split
      · exact Agrees.map_m hobject _
      · exact hcorrupt
    | _ => exact hcorrupt

end Decode

namespace Encode

open DataType

variable {fs : List Field}

theorem date_agrees (days : Int) : Agrees Error.BothUnencodable (date days) (date days) := by
  unfold date
  split
  · exact .ok _
  · exact .error (.unencodable _ _ _)

theorem timestamp_agrees (micros : Int) :
    Agrees Error.BothUnencodable (timestamp micros) (timestamp micros) := by
  unfold timestamp
  split
  · exact .ok _
  · exact .error (.unencodable _ _ _)

/-- The only error of a scalar is that it does not belong to the type. -/
theorem scalar_agrees (t : DataType) (x : Value) : Agrees Error.BothUnencodable (scalar t x) (scalar t x) := by
  unfold scalar
  split
  case h_10 => exact (date_agrees _).map _
  case h_11 => exact (timestamp_agrees _).map _
  case h_13 => exact .error (.unencodable _ _ _)
  all_goals exact .ok _

theorem fields_unaliased
    (ih : ∀ f ∈ fs, ∀ x, Agrees Error.BothUnencodable (value f.type x) (value f.type.unaliased x)) (row : List Value) :
    Agrees Error.BothUnencodable (fields fs row) (fields (unaliasedFields fs) row) := by
  induction fs generalizing row with
  | nil => exact .ok []
  | cons f fs ihf =>
    obtain ⟨name, t, nullable⟩ := f
    rw [List.forall_mem_cons] at ih
    rw [unaliasedFields]
    cases row with
    | nil => exact .ok []
    | cons x row =>
      rw [fields, fields]
      split
      · exact ihf ih.2 row
      · exact (ih.1 x).bind fun token => (ihf ih.2 row).map _

theorem value_unaliased (t : DataType) (x : Value) :
    Agrees Error.BothUnencodable (value t x) (value t.unaliased x) := by
  induction t using DataType.induct generalizing x with
  | scalar t ht =>
    rw [unaliased_scalar ht]
    by_cases hx : x.isNull = true
    · unfold value
      rw [if_pos hx]
      exact .ok _
    · rw [Decode.encode_scalar ht (by simpa using hx)]
      exact scalar_agrees t x
  | named name t ih =>
    rw [value_alias, unaliased]
    exact ih x
  | array e n ih =>
    rw [unaliased]
    unfold value
    split
    · exact .ok _
    · cases x with
      | array items => exact (Agrees.map_m ih items).map _
      | _ => exact .error (.unencodable _ _ _)
  | map w n ih =>
    rw [unaliased]
    unfold value
    split
    · exact .ok _
    · cases x with
      | map entries => exact (Agrees.map_m (fun e => (ih e.2).map _) entries).map _
      | _ => exact .error (.unencodable _ _ _)
  | struct fs ih =>
    have hlen : (unaliasedFields fs).length = fs.length := by rw [unaliased_fields_eq, List.length_map]
    rw [unaliased]
    unfold value
    split
    · exact .ok _
    · cases x with
      | struct row =>
        dsimp only
        rw [hlen]
        split
        · exact (fields_unaliased ih row).map _
        · exact .error (.unencodable _ _ _)
      | _ => exact .error (.unencodable _ _ _)

theorem row_unaliased (s : Schema) (row : Row) :
    Agrees Error.BothUnencodable (Encode.row s row) (Encode.row s.unaliased row) := by
  have h := value_unaliased s.toType (.struct row)
  rw [Schema.toType, unaliased] at h
  exact h.map Json.compact

end Encode

namespace ColumnType

open DataType

mutual

theorem of_type_unaliased : (t : DataType) → ofType t.unaliased = ofType t
  | .alias _ t => by rw [unaliased, of_type_unaliased t, ofType]
  | .array e _ => by rw [unaliased, ofType, of_type_unaliased e, ofType]
  | .map v _ => by rw [unaliased, ofType, of_type_unaliased v, ofType]
  | .struct fs => by rw [unaliased, ofType, of_fields_unaliased fs, ofType]
  | .null | .string | .boolean | .byte | .short | .integer | .long | .float | .double | .decimal _ _
  | .date | .timestamp | .binary => rfl

theorem of_fields_unaliased : (fs : List Field) → ofFields (unaliasedFields fs) = ofFields fs
  | [] => rfl
  | ⟨_, t, _⟩ :: fs => by rw [unaliasedFields, ofFields, of_type_unaliased t, of_fields_unaliased fs, ofFields]

end

end ColumnType

/-- A schema and the schema without its aliases decode every record to the same rows or with errors of one kind, encode
every row to the same text or fail to encode it, and have the same columns or the same error. -/
theorem aliases_transparent (s : Schema) (o : Options) :
    (∀ name t, ¬ DataType.Part (.alias name t) s.unaliased.toType) ∧
      (∀ text, Agrees Error.SameFault (Decode.record s o text) (Decode.record s.unaliased o text)) ∧
      (∀ row, Agrees Error.BothUnencodable (Encode.row s row) (Encode.row s.unaliased row)) ∧
      ColumnType.ofSchema s = ColumnType.ofSchema s.unaliased := by
  refine ⟨fun name t => ?_, Decode.record_unaliased s, Encode.row_unaliased s, ?_⟩
  · exact DataType.unaliased_part s.toType
  · exact (ColumnType.of_fields_unaliased s.fields).symm

end TypedRecords
