import TypedRecords.Proofs.Row.Encodable
import TypedRecords.Proofs.Row.Unaliased
/-!
# Values that match a type

Any value may be offered to the writer under any type. It is written exactly when it matches the type, part by part,
and it is refused for no other reason.
-/

namespace TypedRecords

def Calendar.HasDay (days : Int) : Prop := ∃ d : CivilDate, d.IsValid ∧ d.dayNumber = days

theorem Calendar.has_day_iff {days : Int} : HasDay days ↔ minDay ≤ days ∧ days ≤ maxDay := by
  constructor
  · rintro ⟨d, hd, rfl⟩
    exact hd.bounds
  · rintro ⟨hmin, hmax⟩
    exact ⟨CivilDate.ofDayNumber days, CivilDate.of_day_number_valid hmin hmax, CivilDate.day_number_of_day_number days⟩

/-- A value of the kind that a type stands for. Null is of every type, decimals are of every decimal type, and dates and
timestamps are days of the calendar and instants on them. -/
inductive Matches : DataType → Value → Prop where
  | null (t) : Matches t .null
  | named {n t v} : Matches t v → Matches (.alias n t) v
  | boolean (b) : Matches .boolean (.boolean b)
  | byte (v) : Matches .byte (.byte v)
  | short (v) : Matches .short (.short v)
  | integer (v) : Matches .integer (.integer v)
  | long (v) : Matches .long (.long v)
  | float (x) : Matches .float (.float x)
  | double (x) : Matches .double (.double x)
  | decimal (p s d) : Matches (.decimal p s) (.decimal d)
  | string (s) : Matches .string (.string s)
  | binary (bytes) : Matches .binary (.binary bytes)
  | date {days} : Calendar.HasDay days.toInt → Matches .date (.date days)
  | timestamp {micros} : Calendar.HasDay (micros.toInt / Calendar.microsPerDay) →
      Matches .timestamp (.timestamp micros)
  | array {e n items} : (∀ v ∈ items, Matches e v) → Matches (.array e n) (.array items)
  | map {w n entries} : (∀ e ∈ entries, Matches w e.2) → Matches (.map w n) (.map entries)
  | struct {fs row} : row.length = fs.length → (∀ p ∈ fs.zip row, Matches p.1.type p.2) →
      Matches (.struct fs) (.struct row)

theorem Agrees.unencodable {α : Type} {x y : Except Error α} {e : Error} (h : Agrees Error.BothUnencodable x y)
    (hx : x = .error e) : ∃ found declared, e = .unencodable found declared := by
  cases h with
  | ok x => cases hx
  | error hboth =>
    cases hx
    cases hboth with
    | unencodable found declared => exact ⟨found, declared, rfl⟩

namespace Encode

open DataType

variable {t : DataType} {v : Value} {token : Json} {fs : List Field} {e w : DataType} {n : Bool}

theorem value_null (t : DataType) : value t .null = .ok .null := by
  unfold value
  rfl

section Kinds

theorem value_array_kind (h : value (.array e n) v = .ok token) : v = .null ∨ ∃ items, v = .array items := by
  unfold value at h
  cases v with
  | null => exact Or.inl rfl
  | array items => exact Or.inr ⟨items, rfl⟩
  | _ => cases h

theorem value_map_kind (h : value (.map w n) v = .ok token) : v = .null ∨ ∃ entries, v = .map entries := by
  unfold value at h
  cases v with
  | null => exact Or.inl rfl
  | map entries => exact Or.inr ⟨entries, rfl⟩
  | _ => cases h

theorem value_struct_kind (h : value (.struct fs) v = .ok token) :
    v = .null ∨ ∃ row, v = .struct row ∧ row.length = fs.length := by
  unfold value at h
  cases v with
  | null => exact Or.inl rfl
  | struct row =>
    simp only [Value.isNull, Bool.false_eq_true, if_false] at h
    split at h
    · next hlen => exact Or.inr ⟨row, rfl, hlen⟩
    · cases h
  | _ => cases h

end Kinds

theorem scalar_matches (h : scalar t v = .ok token) : Matches t v := by
  unfold scalar at h
  split at h
  case h_1 => exact .string _
  case h_2 => exact .boolean _
  case h_3 => exact .byte _
  case h_4 => exact .short _
  case h_5 => exact .integer _
  case h_6 => exact .long _
  case h_7 => exact .float _
  case h_8 => exact .double _
  case h_9 => exact .decimal _ _ _
  case h_10 =>
    obtain ⟨text, htext, -⟩ := map_ok_inv h
    exact .date (Calendar.has_day_iff.mpr (date_ok_iff.mp ⟨text, htext⟩))
  case h_11 =>
    obtain ⟨text, htext, -⟩ := map_ok_inv h
    exact .timestamp (Calendar.has_day_iff.mpr (timestamp_ok_iff.mp ⟨text, htext⟩))
  case h_12 => exact .binary _
  case h_13 => cases h

theorem value_matches (h : value t v = .ok token) : Matches t v := by
  induction t using DataType.induct generalizing v token with
  | scalar t ht =>
    cases hnull : v.isNull with
    | true =>
      rw [Value.null_of_is_null hnull]
      exact .null t
    | false =>
      rw [Decode.encode_scalar ht hnull] at h
      exact scalar_matches h
  | named name t ih =>
    rw [value_alias] at h
    exact .named (ih h)
  | array e n ih =>
    rcases value_array_kind h with rfl | ⟨items, rfl⟩
    · exact .null _
    · refine .array ?_
      intro x hx
      obtain ⟨token, hx⟩ := value_array_ok_iff.mp ⟨_, h⟩ x hx
      exact ih hx
  | map w n ih =>
    rcases value_map_kind h with rfl | ⟨entries, rfl⟩
    · exact .null _
    · refine .map ?_
      intro m hm
      obtain ⟨token, hm⟩ := value_map_ok_iff.mp ⟨_, h⟩ m hm
      exact ih hm
  | struct fs ih =>
    rcases value_struct_kind h with rfl | ⟨row, rfl, hlen⟩
    · exact .null _
    · refine .struct hlen ?_
      intro p hp
      obtain ⟨token, hvalue⟩ := (value_struct_ok_iff hlen).mp ⟨_, h⟩ p hp
      exact ih p.1 (List.of_mem_zip hp).1 hvalue

theorem written_of_matches (h : Matches t v) : ∃ token, value t v = .ok token := by
  induction h with
  | null t => exact ⟨.null, value_null t⟩
  | named _ ih =>
    rw [value_alias]
    exact ih
  | boolean | byte | short | integer | long | float | double | decimal | string | binary => exact ⟨_, rfl⟩
  | @date days hday =>
    have hdate : value .date (.date days) = (date days.toInt).map .str := rfl
    rw [hdate, map_ok_iff, date_ok_iff]
    exact Calendar.has_day_iff.mp hday
  | @timestamp micros hday =>
    have htimestamp : value .timestamp (.timestamp micros) = (timestamp micros.toInt).map .str := rfl
    rw [htimestamp, map_ok_iff, timestamp_ok_iff]
    exact Calendar.has_day_iff.mp hday
  | array _ ih => exact value_array_ok_iff.mpr ih
  | map _ ih => exact value_map_ok_iff.mpr ih
  | struct hlen _ ih => exact (value_struct_ok_iff hlen).mpr ih

theorem text_unencodable {e : Error} (h : text t v = .error e) : ∃ found declared, e = .unencodable found declared := by
  have hagrees := (value_unaliased t v).map Json.compact
  exact hagrees.unencodable h

/-- A value is written as a type exactly when it matches it. If it does not, the error says that it cannot be encoded,
and no other error occurs. -/
theorem text_ok_iff_matches (t : DataType) (v : Value) :
    ((∃ out, text t v = .ok out) ↔ Matches t v) ∧
      ((∃ found declared, text t v = .error (.unencodable found declared)) ↔ ¬ Matches t v) := by
  have hok : (∃ out, text t v = .ok out) ↔ Matches t v := by
    rw [text, map_ok_iff]
    constructor
    · rintro ⟨token, htoken⟩
      exact value_matches htoken
    · exact written_of_matches
  refine ⟨hok, ?_⟩
  rw [← hok]
  cases h : text t v with
  | ok out => simp
  | error e =>
    obtain ⟨found, declared, rfl⟩ := text_unencodable h
    simp

end Encode

end TypedRecords
