import TypedRecords.Proofs.Row.RoundTrip
/-!
# Decoded values are well typed

Whatever token is read as a type, the value has the kind, the range and the parts that the type declares, and every
row of a record has one such value for each field of the schema.
-/

namespace TypedRecords

open Json (Settled)

namespace DataType

@[elab_as_elim] theorem induct {motive : DataType → Prop} (array : ∀ e n, motive e → motive (.array e n))
    (map : ∀ w n, motive w → motive (.map w n)) (named : ∀ name t, motive t → motive (.alias name t))
    (struct : ∀ fs, (∀ f ∈ fs, motive f.type) → motive (.struct fs))
    (scalar : ∀ t, Decode.IsScalar t → motive t) (t : DataType) : motive t := by
  refine @DataType.rec motive (fun fs => ∀ f ∈ fs, motive f.type) (fun f => motive f.type)
    ?_ ?_ ?_ ?_ ?_ ?_ ?_ ?_ ?_ ?_ ?_ ?_ ?_ (fun e n he => array e n he) struct (fun w n hw => map w n hw) named ?_ ?_ ?_ t
  case refine_14 => simp
  case refine_15 => exact fun _ _ hf hfs => List.forall_mem_cons.mpr ⟨hf, hfs⟩
  case refine_16 => exact fun _ _ _ ht => ht
  all_goals
    intros
    exact scalar _ trivial

end DataType

/-- A value of the kind that a type declares, whatever number or bytes it holds. -/
def Typed (t : DataType) (v : Value) : Prop := WellTyped { emptyStringAsNull := false } t v

namespace Decode

open DataType

variable {o : Options} {s : Schema} {t : DataType} {v : Json} {x : Value} {fs : List Field} {row : List Value}
  {members : List (String × Json)}

section Inversion

theorem value_scalar_inv (ht : IsScalar t) (h : value o t v = .ok x) :
    x = .null ∨ isNullFor o t v = false ∧ scalar o t v = .ok x := by
  cases hn : isNullFor o t v with
  | false =>
    rw [value_scalar ht hn] at h
    exact Or.inr ⟨rfl, h⟩
  | true =>
    unfold value at h
    rw [if_pos hn] at h
    exact Or.inl (Except.ok.inj h).symm

theorem value_array_inv {e : DataType} {n : Bool} (h : value o (.array e n) v = .ok x) :
    x = .null ∨ (∃ items xs, v = .arr items ∧ items.mapM (value o e) = .ok xs ∧ x = .array xs) ∨
      ∃ members y, v = .obj members ∧ value o e v = .ok y ∧ x = .array [y] := by
  unfold value at h
  split at h
  · exact Or.inl (Except.ok.inj h).symm
  cases v with
  | arr items =>
    obtain ⟨xs, hxs, rfl⟩ := map_ok_inv h
    exact Or.inr (Or.inl ⟨items, xs, rfl, hxs, rfl⟩)
  | obj members =>
    obtain ⟨y, hy, rfl⟩ := map_ok_inv h
    exact Or.inr (Or.inr ⟨members, y, rfl, hy, rfl⟩)
  | _ => cases h

theorem value_map_inv {w : DataType} {n : Bool} (h : value o (.map w n) v = .ok x) :
    x = .null ∨ ∃ members entries, v = .obj members ∧
      (members.mapM fun m => (value o w m.2).map (m.1, ·)) = .ok entries ∧ x = .map entries := by
  unfold value at h
  split at h
  · exact Or.inl (Except.ok.inj h).symm
  cases v with
  | obj members =>
    obtain ⟨entries, hentries, rfl⟩ := map_ok_inv h
    exact Or.inr ⟨members, entries, rfl, hentries, rfl⟩
  | _ => cases h

theorem value_struct_inv (h : value o (.struct fs) v = .ok x) :
    x = .null ∨ ∃ members row, v = .obj members ∧ fields o fs members = .ok row ∧ x = .struct row := by
  unfold value at h
  split at h
  · exact Or.inl (Except.ok.inj h).symm
  cases v with
  | obj members =>
    obtain ⟨row, hrow, rfl⟩ := map_ok_inv h
    exact Or.inr ⟨members, row, rfl, hrow, rfl⟩
  | _ => cases h

theorem fields_cons_inv {f : Field} (h : fields o (f :: fs) members = .ok row) :
    ∃ y rest, row = y :: rest ∧ fields o fs members = .ok rest ∧
      (Json.member? members f.name = none ∧ y = .null ∨
        ∃ v, Json.member? members f.name = some v ∧ value o f.type v = .ok y) := by
  obtain ⟨name, t, n⟩ := f
  rw [fields] at h
  cases hm : Json.member? members name with
  | none =>
    rw [hm] at h
    obtain ⟨rest, hrest, rfl⟩ := map_ok_inv h
    exact ⟨.null, rest, rfl, hrest, Or.inl ⟨rfl, rfl⟩⟩
  | some v =>
    rw [hm] at h
    cases hv : value o t v with
    | error e =>
      simp only [hv] at h
      cases h
    | ok y =>
      simp only [hv] at h
      obtain ⟨rest, hrest, rfl⟩ := map_ok_inv h
      exact ⟨y, rest, rfl, hrest, Or.inr ⟨v, rfl, hv⟩⟩

theorem fields_at (h : fields o fs members = .ok row) {i : Nat} {f : Field} (hf : fs[i]? = some f)
    (hm : Json.member? members f.name = some v) : ∃ y, row[i]? = some y ∧ value o f.type v = .ok y := by
  induction fs generalizing row i with
  | nil => simp at hf
  | cons g fs ih =>
    obtain ⟨y, rest, rfl, hrest, hy⟩ := fields_cons_inv h
    cases i with
    | zero =>
      obtain rfl := Option.some.inj hf
      rcases hy with ⟨hnone, -⟩ | ⟨w, hw, hy⟩
      · rw [hm] at hnone
        contradiction
      · rw [hm] at hw
        obtain rfl := Option.some.inj hw
        exact ⟨y, rfl, hy⟩
    | succ i => exact ih hrest hf

theorem scalar_not_null (h : scalar o t v = .ok x) : x ≠ .null := by
  unfold scalar at h
  split at h
  all_goals first
    | obtain ⟨_, -, rfl⟩ := map_ok_inv h
      simp
    | split at h
      · cases h
        simp
      · cases h
    | cases h
      simp
    | cases h

theorem value_null_inv (h : value o t v = .ok .null) : isNullFor o t v = true := by
  by_contra hn
  rw [Bool.not_eq_true] at hn
  induction t using DataType.induct with
  | scalar t ht =>
    rw [value_scalar ht hn] at h
    exact scalar_not_null h rfl
  | named name t ih =>
    rw [value_alias] at h
    exact ih h hn
  | _ =>
    unfold value at h
    rw [hn] at h
    cases v <;> first | cases h | (obtain ⟨_, -, hx⟩ := map_ok_inv h; cases hx)

end Inversion

theorem of_literal_declared {text : String} {p s : Nat} {d : Decimal} (h : Decimal.ofLiteral text p s = .ok d) :
    d.precision = p ∧ d.scale = s := by
  obtain ⟨_, _, -, -, hd⟩ := Decimal.of_literal_iff.mp h
  exact (Decimal.of_unscaled_iff.mp hd).2

/-- A scalar is well typed under other options, as long as these ask for finite numbers only where there are none and
for bytes only where the empty string is no value. -/
theorem scalar_well_typed {o' : Options} (hfinite : o'.strictNumbers = true → t ≠ .float ∧ t ≠ .double)
    (hbytes : o'.emptyStringAsNull = true → o.emptyStringAsNull = true) (hn : isNullFor o t v = false)
    (h : scalar o t v = .ok x) : WellTyped o' t x := by
  unfold scalar at h
  split at h
  · cases h
    exact .string _
  · cases h
    exact .string _
  · cases h
    exact .boolean _
  · obtain ⟨z, -, rfl⟩ := map_ok_inv h
    exact .byte _
  · obtain ⟨z, -, rfl⟩ := map_ok_inv h
    exact .short _
  · obtain ⟨z, -, rfl⟩ := map_ok_inv h
    exact .integer _
  · obtain ⟨z, -, rfl⟩ := map_ok_inv h
    exact .long _
  · obtain ⟨y, -, rfl⟩ := map_ok_inv h
    exact .float fun hstrict => absurd rfl (hfinite hstrict).1
  · obtain ⟨y, -, rfl⟩ := map_ok_inv h
    exact .double fun hstrict => absurd rfl (hfinite hstrict).2
  · obtain ⟨d, hd, rfl⟩ := map_ok_inv h
    obtain ⟨rfl, rfl⟩ := of_literal_declared hd
    exact .decimal d
  · next s =>
    split at h
    · next bytes hbase64 =>
      cases h
      refine .binary fun hoption => Text.Base64.decode_ne_nil ?_ hbase64
      intro hempty
      have hs : s = "" := by
        apply String.toByteArray_inj.mp
        apply ByteArray.ext
        exact Array.toList_inj.mp hempty
      rw [hs, isNullFor, hbytes hoption] at hn
      contradiction
    · cases h
  · obtain ⟨days, -, rfl⟩ := map_ok_inv h
    exact .date _
  · obtain ⟨z, -, rfl⟩ := map_ok_inv h
    exact .date _
  · obtain ⟨micros, -, rfl⟩ := map_ok_inv h
    exact .timestamp _
  · obtain ⟨z, -, rfl⟩ := map_ok_inv h
    exact .timestamp _
  · cases h

section Parts

/-- The scalars that a type is made of are read as values that are well typed under the options `o'`. -/
def ScalarsTyped (o o' : Options) (t : DataType) : Prop :=
  ∀ u, Part u t → ∀ v x, isNullFor o u v = false → scalar o u v = .ok x → WellTyped o' u x

variable {o' : Options}

theorem fields_well_typed (ih : ∀ f ∈ fs, ∀ v x, Settled v → value o f.type v = .ok x → WellTyped o' f.type x)
    (hm : ∀ m ∈ members, Settled m.2) (h : fields o fs members = .ok row) :
    WellTyped o' (.struct fs) (.struct row) := by
  suffices hrow : row.length = fs.length ∧ ∀ p ∈ fs.zip row, WellTyped o' p.1.type p.2 from .struct hrow.1 hrow.2
  induction fs generalizing row with
  | nil =>
    cases h
    simp
  | cons f fs ihf =>
    obtain ⟨y, rest, rfl, hrest, hy⟩ := fields_cons_inv h
    rw [List.forall_mem_cons] at ih
    obtain ⟨hlen, htyped⟩ := ihf ih.2 hrest
    refine ⟨by simp [hlen], ?_⟩
    rw [List.zip_cons_cons, List.forall_mem_cons]
    refine ⟨?_, htyped⟩
    rcases hy with ⟨-, rfl⟩ | ⟨v, hv, hy⟩
    · exact .null _
    · exact ih.1 v y (hm _ (Json.mem_of_member hv)) hy

/-- What the scalars are, the whole value is. -/
theorem value_well_typed (hscalar : ScalarsTyped o o' t) (hv : Settled v) (h : value o t v = .ok x) :
    WellTyped o' t x := by
  induction t using DataType.induct generalizing v x with
  | scalar t ht =>
    rcases value_scalar_inv ht h with rfl | ⟨hn, h⟩
    · exact .null t
    · exact hscalar t .here v x hn h
  | named name t ih =>
    rw [value_alias] at h
    exact .named (ih (fun u hu => hscalar u (.storage hu)) hv h)
  | array e n ih =>
    have hitem := fun u hu => hscalar u (.element hu)
    rcases value_array_inv h with rfl | ⟨items, xs, rfl, hxs, rfl⟩ | ⟨members, y, -, hy, rfl⟩
    · exact .null _
    · refine .array ?_
      intro y hy
      obtain ⟨w, hw, hy⟩ := map_m_mem hxs y hy
      cases hv with
      | arr hitems => exact ih hitem (hitems w hw) hy
    · refine .array ?_
      intro z hz
      rw [List.mem_singleton.mp hz]
      exact ih hitem hv hy
  | map w n ih =>
    rcases value_map_inv h with rfl | ⟨members, entries, rfl, hentries, rfl⟩
    · exact .null _
    cases hv with
    | obj hkeys hmembers =>
      have hsame : entries.map Prod.fst = members.map Prod.fst := by
        refine map_m_keeps ?_ hentries
        intro m _ e he
        obtain ⟨y, -, rfl⟩ := map_ok_inv he
        rfl
      refine .map (hsame ▸ hkeys) ?_
      intro e he
      obtain ⟨m, hm, he⟩ := map_m_mem hentries e he
      obtain ⟨y, hy, rfl⟩ := map_ok_inv he
      exact ih (fun u hu => hscalar u (.value hu)) (hmembers m hm) hy
  | struct fs ih =>
    rcases value_struct_inv h with rfl | ⟨members, row, rfl, hrow, rfl⟩
    · exact .null _
    cases hv with
    | obj _ hmembers =>
      refine fields_well_typed ?_ hmembers hrow
      intro f hf v x hv h
      exact ih f hf (fun u hu => hscalar u (.field hf hu)) hv h

theorem object_well_typed (hscalar : ScalarsTyped o o' (.struct fs)) (hv : Settled (.obj members))
    (h : fields o fs members = .ok row) : WellTyped o' (.struct fs) (.struct row) := by
  cases hv with
  | obj _ hmembers =>
    refine fields_well_typed ?_ hmembers h
    intro f hf v x hv h
    exact value_well_typed (fun u hu => hscalar u (.field hf hu)) hv h

theorem string_well_typed (ht : t.resolve = .string) (text : String) : WellTyped o' t (.string text) := by
  induction t using DataType.induct with
  | named name t ih => exact .named (ih ht)
  | scalar t hscalar =>
    cases t <;> first | contradiction | exact .string text
  | _ => cases ht

theorem corrupt_rows_typed (s : Schema) (text : String) :
    ∀ row ∈ corruptRows s o text, WellTyped o' s.toType (.struct row) := by
  intro row hrow
  obtain ⟨i, f, hf, ht, rfl⟩ := mem_corrupt_rows hrow
  refine .struct (by simp [Row.put, Row.nulls, Schema.size]) ?_
  intro p hp
  obtain ⟨j, hj⟩ := List.mem_iff_getElem?.mp hp
  obtain ⟨hfield, hvalue⟩ := List.getElem?_zip_eq_some.mp hj
  rw [Row.put, List.getElem?_set] at hvalue
  split at hvalue
  · next hij =>
    split at hvalue
    · rw [← Option.some.inj hvalue]
      rw [← hij, hf] at hfield
      rw [← Option.some.inj hfield]
      exact string_well_typed ht text
    · contradiction
  · have hnull : p.2 = .null := List.eq_of_mem_replicate (List.mem_of_getElem? hvalue)
    rw [hnull]
    exact .null _

theorem row_of_record {text : String} {rows : List Row} (h : record s o text = .ok rows) (hrow : row ∈ rows) :
    row ∈ corruptRows s o text ∨ ∃ members, Settled (.obj members) ∧ fields o s.fields members = .ok row := by
  have hcorrupt (hrecord : record s o text = .ok (corruptRows s o text)) : row ∈ corruptRows s o text := by
    rw [h] at hrecord
    rwa [← Except.ok.inj hrecord]
  cases hv : Json.ofText? text with
  | none => exact Or.inl (hcorrupt (by rw [record, hv]))
  | some v =>
    have hsettled := Json.of_text_settled hv
    cases v with
    | null =>
      rw [record, hv] at h
      cases h
      cases hrow
    | obj members =>
      rw [record_object hv] at h
      obtain ⟨values, hvalues, rfl⟩ := map_ok_inv h
      obtain rfl := List.mem_singleton.mp hrow
      exact Or.inr ⟨members, hsettled, hvalues⟩
    | arr items =>
      by_cases hall : items.all isRowToken = true
      · rw [record_elements hv hall] at h
        obtain ⟨members, hitem, hvalues⟩ := mem_elements h hrow
        cases hsettled with
        | arr hitems => exact Or.inr ⟨members, hitems _ hitem, hvalues⟩
      · exact Or.inl (hcorrupt (by simp only [record, hv, if_neg hall]))
    | _ => exact Or.inl (hcorrupt (by rw [record, hv]))

theorem record_well_typed {text : String} {rows : List Row} (hscalar : ScalarsTyped o o' s.toType)
    (h : record s o text = .ok rows) : ∀ row ∈ rows, WellTyped o' s.toType (.struct row) := by
  intro row hrow
  rcases row_of_record h hrow with hcorrupt | ⟨members, hsettled, hvalues⟩
  · exact corrupt_rows_typed s text row hcorrupt
  · exact object_well_typed hscalar hsettled hvalues

end Parts

theorem scalars_typed (o : Options) (t : DataType) : ScalarsTyped o { emptyStringAsNull := false } t :=
  fun _ _ _ _ hn h => scalar_well_typed nofun nofun hn h

theorem value_typed (hv : Settled v) (h : value o t v = .ok x) : Typed t x := value_well_typed (scalars_typed o t) hv h

theorem record_typed {text : String} {rows : List Row} (h : record s o text = .ok rows) :
    ∀ row ∈ rows, Typed s.toType (.struct row) := record_well_typed (scalars_typed o s.toType) h

end Decode

end TypedRecords
