import TypedRecords.Proofs.Row.Typed
/-!
# Decoded values are in range

A number in a decoded value is the one that its token states, and it fits the word of the declared type: nothing is
cut off on the way. With the types of all parts this makes decoding type safe.
-/

namespace TypedRecords

/-- The number in a value that counts something: a whole number, the days of a date, the microseconds of an
instant. -/
def Value.whole? : Value → Option Int
  | .byte v => some v.toInt
  | .short v => some v.toInt
  | .integer v => some v.toInt
  | .long v => some v.toInt
  | .date days => some days.toInt
  | .timestamp micros => some micros.toInt
  | _ => none

def DataType.wordBits? : DataType → Option Nat
  | .byte => some 8
  | .short => some 16
  | .integer => some 32
  | .long => some 64
  | .date => some 32
  | .timestamp => some 64
  | _ => none

namespace Decode

open DataType
open Json (Settled)

variable {o : Options} {t : DataType} {v : Json} {x : Value}

/-- The number that a token states for a type, whether or not a word holds it. -/
def stated? (t : DataType) (v : Json) : Option Int :=
  match t, v with
  | .date, .str s => Calendar.readDate? s
  | .timestamp, .str s => Calendar.readTimestamp? s
  | .timestamp, .num literal => (Literal.long? literal).map (· * Calendar.microsPerSecond)
  | _, .num literal => Literal.long? literal
  | _, _ => none

def Exact (t : DataType) (v : Json) (x : Value) : Prop :=
  ∀ z, x.whole? = some z → stated? t v = some z ∧ ∃ bits, t.wordBits? = some bits ∧ Fits bits z

theorem exact_of_none (h : x.whole? = none) : Exact t v x := by
  intro z hz
  rw [h] at hz
  contradiction

section Words

variable {z : Int} {literal : String} {bits : Nat}

theorem whole_inv (h : whole t literal = .ok z) : Literal.long? literal = some z ∧ Fits 64 z := by
  unfold whole at h
  split at h
  · next w hw =>
    obtain rfl := Except.ok.inj h
    exact ⟨hw, (Literal.long_inv hw).2⟩
  · split at h <;> cases h

theorem whole_within_inv (h : wholeWithin bits t literal = .ok z) :
    Literal.long? literal = some z ∧ Fits bits z := by
  unfold wholeWithin at h
  cases hw : whole t literal with
  | error e =>
    rw [hw] at h
    cases h
  | ok w =>
    rw [hw] at h
    change (if Fits bits w then _ else _) = _ at h
    split at h
    · next hfits =>
      obtain rfl := Except.ok.inj h
      exact ⟨(whole_inv hw).1, hfits⟩
    · cases h

theorem seconds_inv (h : secondsAsMicros t literal = .ok z) :
    (Literal.long? literal).map (· * Calendar.microsPerSecond) = some z ∧ Fits 64 z := by
  unfold secondsAsMicros at h
  cases hw : whole t literal with
  | error e =>
    rw [hw] at h
    cases h
  | ok w =>
    rw [hw] at h
    change (if Fits 64 (w * Calendar.microsPerSecond) then _ else _) = _ at h
    split at h
    · next hfits =>
      obtain rfl := Except.ok.inj h
      rw [(whole_inv hw).1]
      exact ⟨rfl, hfits⟩
    · cases h

theorem date_inv {s : String} (h : date s = .ok z) : Calendar.readDate? s = some z ∧ Fits 32 z := by
  have hword {d : Calendar.CivilDate} (hd : d.IsValid) : Fits 32 d.dayNumber := by
    obtain ⟨hmin, hmax⟩ := hd.bounds
    have hlow : -2147483648 < Calendar.minDay := by decide
    have hhigh : Calendar.maxDay < 2147483648 := by decide
    constructor
    · norm_num
      omega
    · norm_num
      omega
  unfold date at h
  split at h
  · next days hdays =>
    obtain rfl := Except.ok.inj h
    refine ⟨hdays, ?_⟩
    unfold Calendar.readDate? at hdays
    dsimp only at hdays
    split at hdays
    · split at hdays
      · next d hd =>
        obtain rfl := Option.some.inj hdays
        exact hword (Calendar.plain_date_valid hd)
      · obtain ⟨⟨d, clock⟩, hl, rfl⟩ := Option.map_eq_some_iff.mp hdays
        obtain ⟨rest, hd, -⟩ := Calendar.loose_date_time_iff.mp hl
        exact hword (Calendar.date_fields_valid hd)
    · obtain ⟨n, -, hn⟩ := Option.bind_eq_some_iff.mp hdays
      obtain ⟨hfits, rfl⟩ := fitting_inv hn
      exact hfits
  · cases h

theorem timestamp_inv {s : String} (h : timestamp s = .ok z) :
    Calendar.readTimestamp? s = some z ∧ Fits 64 z := by
  unfold timestamp at h
  split at h
  · next micros hmicros =>
    obtain rfl := Except.ok.inj h
    refine ⟨hmicros, ?_⟩
    have hlow : -106000000 < Calendar.minDay := by decide
    have hhigh : Calendar.maxDay < 105000000 := by decide
    have hbounds : -106000000 * Calendar.microsPerDay ≤ micros ∧ micros < 106000000 * Calendar.microsPerDay := by
      rcases Calendar.read_timestamp_inv hmicros with hs | ⟨cs, d, rest, clock, -, hd, hclock, rfl⟩
      · obtain ⟨hmin, hmax⟩ := Calendar.strict_timestamp_writable hs
        simp only [Calendar.microsPerDay, Calendar.microsPerSecond] at hmin hmax ⊢
        omega
      · obtain ⟨hmin, hmax⟩ := (Calendar.date_fields_valid hd).bounds
        simp only [Calendar.instant, Calendar.microsPerDay, Calendar.microsPerSecond] at hclock ⊢
        omega
    simp only [Calendar.microsPerDay, Calendar.microsPerSecond] at hbounds
    constructor
    · norm_num
      omega
    · norm_num
      omega
  · cases h

end Words

theorem exact_of_fits {z w : Int} {bits : Nat} (hbits : t.wordBits? = some bits) (hx : x.whole? = some w)
    (hw : Fits bits z → w = z) (h : stated? t v = some z ∧ Fits bits z) : Exact t v x := by
  intro n hn
  obtain rfl := Option.some.inj (hx.symm.trans hn)
  obtain rfl := hw h.2
  exact ⟨h.1, bits, hbits, h.2⟩

theorem scalar_exact (h : scalar o t v = .ok x) : Exact t v x := by
  unfold scalar at h
  split at h
  · cases h
    exact exact_of_none rfl
  · cases h
    exact exact_of_none rfl
  · cases h
    exact exact_of_none rfl
  · obtain ⟨z, hz, rfl⟩ := map_ok_inv h
    exact exact_of_fits rfl rfl (fun hf => Int8.toInt_ofInt_of_le hf.1 hf.2) (whole_within_inv hz)
  · obtain ⟨z, hz, rfl⟩ := map_ok_inv h
    exact exact_of_fits rfl rfl (fun hf => Int16.toInt_ofInt_of_le hf.1 hf.2) (whole_within_inv hz)
  · obtain ⟨z, hz, rfl⟩ := map_ok_inv h
    exact exact_of_fits rfl rfl (fun hf => Int32.toInt_ofInt_of_le hf.1 hf.2) (whole_within_inv hz)
  · obtain ⟨z, hz, rfl⟩ := map_ok_inv h
    exact exact_of_fits rfl rfl (fun hf => Int64.toInt_ofInt_of_le hf.1 hf.2) (whole_inv hz)
  · obtain ⟨y, -, rfl⟩ := map_ok_inv h
    exact exact_of_none rfl
  · obtain ⟨y, -, rfl⟩ := map_ok_inv h
    exact exact_of_none rfl
  · obtain ⟨d, -, rfl⟩ := map_ok_inv h
    exact exact_of_none rfl
  · split at h
    · cases h
      exact exact_of_none rfl
    · cases h
  · obtain ⟨z, hz, rfl⟩ := map_ok_inv h
    exact exact_of_fits rfl rfl (fun hf => Int32.toInt_ofInt_of_le hf.1 hf.2) (date_inv hz)
  · obtain ⟨z, hz, rfl⟩ := map_ok_inv h
    exact exact_of_fits rfl rfl (fun hf => Int32.toInt_ofInt_of_le hf.1 hf.2) (whole_within_inv hz)
  · obtain ⟨z, hz, rfl⟩ := map_ok_inv h
    exact exact_of_fits rfl rfl (fun hf => Int64.toInt_ofInt_of_le hf.1 hf.2) (timestamp_inv hz)
  · obtain ⟨z, hz, rfl⟩ := map_ok_inv h
    exact exact_of_fits rfl rfl (fun hf => Int64.toInt_ofInt_of_le hf.1 hf.2) (seconds_inv hz)
  · cases h

theorem resolve_scalar (ht : IsScalar t) : t.resolve = t := by
  cases t <;> first | contradiction | rfl

/-- No number is changed by decoding. -/
theorem value_exact (h : value o t v = .ok x) : Exact t.resolve v x := by
  induction t using DataType.induct generalizing x with
  | scalar t ht =>
    rw [resolve_scalar ht]
    rcases value_scalar_inv ht h with rfl | ⟨-, h⟩
    · exact exact_of_none rfl
    · exact scalar_exact h
  | named name t ih =>
    rw [value_alias] at h
    exact ih h
  | array e n _ =>
    apply exact_of_none
    rcases value_array_inv h with rfl | ⟨items, xs, -, -, rfl⟩ | ⟨members, y, -, -, rfl⟩ <;> rfl
  | map w n _ =>
    apply exact_of_none
    rcases value_map_inv h with rfl | ⟨members, entries, -, -, rfl⟩ <;> rfl
  | struct fs _ =>
    apply exact_of_none
    rcases value_struct_inv h with rfl | ⟨members, row, -, -, rfl⟩ <;> rfl

theorem typed_decimal {d : Decimal} (h : Typed t (.decimal d)) : t.resolve = .decimal d.precision d.scale := by
  induction t using DataType.induct with
  | named name t ih =>
    cases h with
    | named h => exact ih h
  | scalar t ht =>
    cases h <;> first | contradiction | rfl
  | _ => cases h

theorem typed_struct {fs : List Field} {row : List Value} (h : Typed (.struct fs) (.struct row)) :
    row.length = fs.length ∧ ∀ (i : Nat) (f : Field) x, fs[i]? = some f → row[i]? = some x → Typed f.type x := by
  cases h with
  | struct hlen htyped =>
    refine ⟨hlen, ?_⟩
    intro i f x hf hx
    exact htyped (f, x) (List.mem_iff_getElem?.mpr ⟨i, List.getElem?_zip_eq_some.mpr ⟨hf, hx⟩⟩)

/-- Decoding is type safe. A value has the kind and the parts that its type declares, numbers are those of their
tokens and within their words, decimals have the declared digits, and a row has one such value for each field. -/
theorem decode_type_safe (o : Options) :
    (∀ t v x, Settled v → value o t v = .ok x → Typed t x ∧ Exact t.resolve v x ∧
      ∀ d, x = .decimal d → t.resolve = .decimal d.precision d.scale ∧
        (0 < d.precision ∧ d.precision ≤ maxPrecision) ∧ d.scale ≤ d.precision ∧
          d.unscaled.natAbs < 10 ^ d.precision) ∧
    ∀ s text rows, record s o text = .ok rows → ∀ row ∈ rows, row.length = s.size ∧
      ∀ (i : Nat) (f : Field) x, s.fields[i]? = some f → row[i]? = some x → Typed f.type x := by
  constructor
  · intro t v x hv h
    have htyped := value_typed hv h
    refine ⟨htyped, value_exact h, ?_⟩
    rintro d rfl
    exact ⟨typed_decimal htyped, ⟨d.precision_pos, d.precision_le⟩, d.scale_le, d.unscaled_lt⟩
  · intro s text rows h row hrow
    exact typed_struct (record_typed h row hrow)

/-- The least byte, and a map of decimals that are rounded. -/
theorem decode_type_safe_byte :
    let s : Schema := ⟨[⟨"b", .byte, true⟩, ⟨"m", .map (.array (.decimal 4 2) true) true, true⟩], rfl⟩
    let token : Json := .obj [("b", .num "-128"), ("m", .obj [("k", .arr [.num "1.005"])])]
    let amount : Decimal := ⟨101, 4, 2, by decide, by decide, by decide, by decide⟩
    let row : Row := [.byte (-128), .map [("k", .array [.decimal amount])]]
    (Settled (.num "-128") ∧ value {} .byte (.num "-128") = .ok (.byte (-128)) ∧ Typed .byte (.byte (-128)) ∧
      Exact .byte (.num "-128") (.byte (-128))) ∧
    record s {} token.compact = .ok [row] ∧ row.length = s.size ∧
      Typed (.map (.array (.decimal 4 2) true) true) (.map [("k", .array [.decimal amount])]) := by
  intro s token amount row
  have hbyte (p : List String → Prop) : Json.Formed p (.num "-128") :=
    .num ⟨true, ['1', '2', '8'], [], none, by decide, by decide, rfl, by simp⟩
  have hamount (p : List String → Prop) : Json.Formed p (.num "1.005") :=
    .num ⟨false, ['1'], ['0', '0', '5'], none, by decide, by decide, rfl, by simp⟩
  have hformed (p : List String → Prop) (hrow : p ["b", "m"]) (hmap : p ["k"]) : Json.Formed p token := by
    refine .obj hrow ?_
    simp only [List.forall_mem_cons]
    exact ⟨hbyte p, .obj hmap (by simpa using .arr (by simpa using hamount p)), by simp⟩
  have htext := Json.of_text_compact (hformed _ (by decide) (by decide)) (hformed _ (by decide) (by decide)) (by decide)
  have hvalue : value {} .byte (.num "-128") = .ok (.byte (-128)) := by rfl
  have hrecord : record s {} token.compact = .ok [row] := by
    rw [record, htext]
    rfl
  obtain ⟨htyped, hexact, -⟩ := (decode_type_safe {}).1 .byte _ _ (hbyte _) hvalue
  obtain ⟨hsize, hrow⟩ := (decode_type_safe {}).2 s _ _ hrecord row (List.mem_singleton_self row)
  exact ⟨⟨hbyte _, hvalue, htyped, hexact⟩, hrecord, hsize, hrow 1 _ _ rfl rfl⟩

end Decode

end TypedRecords
