import TypedRecords.Proofs.DataType.Canonical
import TypedRecords.Proofs.Row.Write
import TypedRecords.Row.Decode
/-!
# Tokens that can be read and written again

A token is readable as a type when it decodes to a value that encodes under that type. Arrays and structs are
readable when their parts are. The rows of a record are read from its objects, or one row keeps its text.
-/

namespace TypedRecords

namespace Decode

open DataType

variable {o : Options} {t u : DataType} {v : Json} {x : Value} {fs : List Field}

def Writes (t : DataType) (x : Value) : Prop := ∃ token, Encode.value t x = .ok token

def Reads (o : Options) (t : DataType) (v : Json) : Prop := ∃ x, value o t v = .ok x ∧ Writes t x

theorem writes_null (t : DataType) : Writes t .null := ⟨.null, by unfold Encode.value; rfl⟩

theorem reads_null (h : isNullFor o t v = true) : Reads o t v := by
  refine ⟨.null, ?_, writes_null t⟩
  unfold value
  rw [if_pos h]

theorem reads_of (h : isNullFor o t v = false → Reads o t v) : Reads o t v := by
  cases hn : isNullFor o t v with
  | true => exact reads_null hn
  | false => exact h hn

def IsScalar : DataType → Prop
  | .array _ _ => False
  | .struct _ => False
  | .map _ _ => False
  | .alias _ _ => False
  | _ => True

theorem value_scalar (ht : IsScalar t) (hn : isNullFor o t v = false) : value o t v = scalar o t v := by
  unfold value
  rw [hn]
  cases t <;> first | contradiction | rfl

theorem encode_scalar (ht : IsScalar t) (hx : x.isNull = false) :
    Encode.value t x = Encode.scalar t x := by
  unfold Encode.value
  rw [hx]
  cases t <;> first | contradiction | rfl

theorem reads_scalar (ht : IsScalar t) (h : scalar o t v = .ok x) (hx : x.isNull = false)
    {token : Json} (hw : Encode.scalar t x = .ok token) : Reads o t v :=
  reads_of fun hn => ⟨x, by rw [value_scalar ht hn, h], token, by rw [encode_scalar ht hx, hw]⟩

theorem reads_string (v : Json) : Reads o .string v := by
  cases v with
  | str s => exact reads_scalar trivial (x := .string s) rfl rfl rfl
  | _ => exact reads_scalar trivial (x := .string _) rfl rfl rfl

theorem reads_boolean (b : Bool) : Reads o .boolean (.bool b) :=
  reads_scalar trivial (x := .boolean b) rfl rfl rfl

theorem reads_double (literal : String) : Reads o .double (.num literal) :=
  reads_scalar trivial (x := .double (real literal)) rfl rfl rfl

theorem reads_long {literal : String} {z : Int} (h : Literal.long? literal = some z) :
    Reads o .long (.num literal) := by
  have hread : scalar o .long (.num literal) = .ok (.long (Int64.ofInt z)) := by
    simp only [scalar, whole, h]
    rfl
  exact reads_scalar trivial hread rfl rfl

theorem reads_decimal {literal : String} {p s : Nat} {d : Decimal}
    (h : Decimal.ofLiteral literal p s = .ok d) : Reads o (.decimal p s) (.num literal) := by
  have hread : scalar o (.decimal p s) (.num literal) = .ok (.decimal d) := by
    simp only [scalar, h]
    rfl
  exact reads_scalar trivial hread rfl rfl

theorem reads_date {s : String} {days : Int} (h : Calendar.readDate? s = some days)
    (hmin : Calendar.minDay ≤ days) (hmax : days ≤ Calendar.maxDay) : Reads o .date (.str s) := by
  have hread : scalar o .date (.str s) = .ok (.date (Int32.ofInt days)) := by
    simp only [scalar, date, h]
    rfl
  have hlow : -2147483648 < Calendar.minDay := by decide
  have hhigh : Calendar.maxDay < 2147483648 := by decide
  have hdays : (Int32.ofInt days).toInt = days := Int32.toInt_ofInt_of_le (by omega) (by omega)
  have hwrite : Encode.scalar .date (.date (Int32.ofInt days)) =
      .ok (.str (String.ofList (Calendar.CivilDate.ofDayNumber days).chars)) := by
    simp only [Encode.scalar, Encode.date, Calendar.dateText?, hdays, hmin, hmax, and_self, if_true]
    rfl
  exact reads_scalar trivial hread rfl hwrite

theorem reads_timestamp {s : String} {micros : Int} (h : Calendar.readTimestamp? s = some micros)
    (hmin : Calendar.minDay ≤ micros / Calendar.microsPerDay)
    (hmax : micros / Calendar.microsPerDay ≤ Calendar.maxDay) : Reads o .timestamp (.str s) := by
  have hread : scalar o .timestamp (.str s) = .ok (.timestamp (Int64.ofInt micros)) := by
    simp only [scalar, timestamp, h]
    rfl
  have hlow : -106000000 < Calendar.minDay := by decide
  have hhigh : Calendar.maxDay < 106000000 := by decide
  have hmicros : (Int64.ofInt micros).toInt = micros := by
    simp only [Calendar.microsPerDay, Calendar.microsPerSecond] at hmin hmax
    exact Int64.toInt_ofInt_of_le (by omega) (by omega)
  obtain ⟨text, htext⟩ : ∃ text, Calendar.timestampText? micros = some text := by
    simp only [Calendar.timestampText?, hmin, hmax, and_self, if_true]
    exact ⟨_, rfl⟩
  have hwrite : Encode.scalar .timestamp (.timestamp (Int64.ofInt micros)) = .ok (.str text) := by
    simp only [Encode.scalar, Encode.timestamp, hmicros, htext]
    rfl
  exact reads_scalar trivial hread rfl hwrite

theorem reads_array {e : DataType} {n : Bool} {items : List Json} (h : ∀ v ∈ items, Reads o e v) :
    Reads o (.array e n) (.arr items) := by
  obtain ⟨xs, hxs, hw⟩ := map_m_exists h
  obtain ⟨tokens, htokens, -⟩ := map_m_exists (p := fun _ => True)
    fun x hx => (hw x hx).imp fun _ ht => ⟨ht, trivial⟩
  refine ⟨.array xs, ?_, .arr tokens, ?_⟩
  · unfold value
    simp [isNullFor, hxs, Except.map]
  · unfold Encode.value
    simp [Value.isNull, htokens, Except.map]

theorem fields_read {members : List (String × Json)}
    (h : ∀ f ∈ fs, ∀ v, Json.member? members f.name = some v → Reads o f.type v) :
    ∃ row, fields o fs members = .ok row ∧ row.length = fs.length ∧
      ∃ tokens, Encode.fields fs row = .ok tokens := by
  induction fs with
  | nil => exact ⟨[], by unfold fields; rfl, rfl, [], by unfold Encode.fields; rfl⟩
  | cons f fs ih =>
    obtain ⟨name, t, nullable⟩ := f
    rw [List.forall_mem_cons] at h
    obtain ⟨row, hrow, hlen, tokens, htokens⟩ := ih h.2
    cases hm : Json.member? members name with
    | none =>
      refine ⟨.null :: row, ?_, by simp [hlen], tokens, ?_⟩
      · unfold fields
        simp [hm, hrow, Except.map]
      · unfold Encode.fields
        simp [Value.isNull, htokens]
    | some v =>
      obtain ⟨x, hx, token, htoken⟩ := h.1 v hm
      have hread : fields o (⟨name, t, nullable⟩ :: fs) members = .ok (x :: row) := by
        unfold fields
        simp [hm, hx, hrow, Except.map, bind, Except.bind]
      by_cases hnull : x.isNull = true
      · refine ⟨x :: row, hread, by simp [hlen], tokens, ?_⟩
        unfold Encode.fields
        simp [hnull, htokens]
      · refine ⟨x :: row, hread, by simp [hlen], (name, token) :: tokens, ?_⟩
        unfold Encode.fields
        simp [hnull, htoken, htokens, Except.map, bind, Except.bind]

theorem writes_struct {row : List Value} (hlen : row.length = fs.length)
    (h : ∃ tokens, Encode.fields fs row = .ok tokens) : Writes (.struct fs) (.struct row) := by
  obtain ⟨tokens, htokens⟩ := h
  refine ⟨.obj tokens, ?_⟩
  unfold Encode.value
  simp [Value.isNull, hlen, htokens, Except.map]

theorem reads_struct {members : List (String × Json)}
    (h : ∀ f ∈ fs, ∀ v, Json.member? members f.name = some v → Reads o f.type v) :
    Reads o (.struct fs) (.obj members) := by
  obtain ⟨row, hrow, hlen, htokens⟩ := fields_read h
  refine ⟨.struct row, ?_, writes_struct hlen htokens⟩
  unfold value
  simp [isNullFor, hrow, Except.map]

def WritesRow (s : Schema) (row : Row) : Prop :=
  row.length = s.size ∧ ∃ text, Encode.row s row = .ok text

theorem writes_row {s : Schema} {row : Row} (hlen : row.length = s.size)
    (h : ∃ tokens, Encode.fields s.fields row = .ok tokens) : WritesRow s row := by
  obtain ⟨token, htoken⟩ := writes_struct hlen h
  exact ⟨hlen, token.compact, by rw [Encode.row, Encode.object, Schema.toType, htoken]; rfl⟩

theorem writes_string (h : t.resolve = .string) (text : String) : Writes t (.string text) :=
  ⟨_, Encode.value_string h text⟩

theorem nulls_write (fs : List Field) : Encode.fields fs (Row.nulls fs.length) = .ok [] := by
  induction fs with
  | nil => unfold Encode.fields; rfl
  | cons f fs ih =>
    unfold Encode.fields
    simpa [Row.nulls, List.replicate_succ, Value.isNull] using ih

theorem put_string_writes {i : Nat} {f : Field} (hf : fs[i]? = some f) (ht : f.type.resolve = .string)
    (text : String) : ∃ tokens, Encode.fields fs ((Row.nulls fs.length).put i (.string text)) = .ok tokens := by
  induction fs generalizing i with
  | nil => simp at hf
  | cons g fs ih =>
    cases i with
    | zero =>
      obtain rfl := Option.some.inj hf
      obtain ⟨token, htoken⟩ := writes_string ht text
      refine ⟨[(g.name, token)], ?_⟩
      have hnulls := nulls_write fs
      unfold Encode.fields
      simp only [Row.nulls, Row.put, List.length_cons, List.replicate_succ, List.set_cons_zero] at hnulls ⊢
      simp [Value.isNull, htoken, hnulls, Except.map, bind, Except.bind]
    | succ i =>
      obtain ⟨tokens, htokens⟩ := ih (i := i) (by simpa using hf)
      refine ⟨tokens, ?_⟩
      unfold Encode.fields
      simp only [Row.nulls, Row.put, List.length_cons, List.replicate_succ, List.set_cons_succ] at htokens ⊢
      simp [Value.isNull, htokens]

theorem corrupt_index_field {s : Schema} {i : Nat} (h : corruptIndex? s o = some i) :
    ∃ f, s.fields[i]? = some f ∧ f.type.resolve = .string := by
  simp only [corruptIndex?, Option.bind_eq_bind, Option.bind_eq_some_iff] at h
  obtain ⟨name, -, j, -, f, hf, h⟩ := h
  split at h
  · next ht =>
    obtain rfl := Option.some.inj h
    exact ⟨f, hf, ht⟩
  · contradiction

theorem mem_corrupt_rows {s : Schema} {text : String} {row : Row} (h : row ∈ corruptRows s o text) :
    ∃ i f, s.fields[i]? = some f ∧ f.type.resolve = .string ∧ row = (Row.nulls s.size).put i (.string text) := by
  unfold corruptRows at h
  split at h
  · next i hi =>
    obtain ⟨f, hf, ht⟩ := corrupt_index_field hi
    exact ⟨i, f, hf, ht, List.mem_singleton.mp h⟩
  · cases h

theorem corrupt_rows_write (s : Schema) (text : String) : ∀ row ∈ corruptRows s o text, WritesRow s row := by
  intro row hrow
  obtain ⟨i, f, hf, ht, rfl⟩ := mem_corrupt_rows hrow
  exact writes_row (by simp [Row.put, Row.nulls]) (put_string_writes hf ht text)

section Records

variable {s : Schema} {text : String}

theorem record_object {members : List (String × Json)} (hv : Json.ofText? text = some (.obj members)) :
    record s o text = (fields o s.fields members).map ([·]) := by
  rw [record, hv]

theorem record_elements {items : List Json} (hv : Json.ofText? text = some (.arr items))
    (hrows : items.all isRowToken = true) : record s o text = elements s o items := by
  simp only [record, hv, if_pos hrows]

theorem mem_elements {items : List Json} {rows : List Row} {row : Row} (h : elements s o items = .ok rows)
    (hrow : row ∈ rows) : ∃ members, .obj members ∈ items ∧ fields o s.fields members = .ok row := by
  obtain ⟨members, hmembers, hfields⟩ := map_m_mem h row hrow
  obtain ⟨w, hw, hobj⟩ := List.mem_filterMap.mp hmembers
  cases w <;> cases hobj
  exact ⟨members, hw, hfields⟩

end Records

end Decode

end TypedRecords
