import TypedRecords.Proofs.Row.Encodable
import TypedRecords.Proofs.Row.Record
/-!
# Rows of strict readers

Literals beyond the range of a floating point type are read as infinities, and infinities are written as words. A
reader that refuses these words reads the text of its own row again exactly when all numbers in the row are finite.
-/

namespace TypedRecords

open Json (Boxless)

namespace Value

def Finite : Value → Prop
  | .float x => x.isFinite = true
  | .double x => x.isFinite = true
  | _ => True

def AllFinite (v : Value) : Prop := ∀ x, Part x v → x.Finite

variable {items : List Value} {entries : List (String × Value)}

theorem all_finite_array : AllFinite (.array items) ↔ ∀ v ∈ items, v.AllFinite := forall_part_array trivial

theorem all_finite_map : AllFinite (.map entries) ↔ ∀ e ∈ entries, e.2.AllFinite := forall_part_map trivial

theorem all_finite_struct : AllFinite (.struct items) ↔ ∀ v ∈ items, v.AllFinite := forall_part_struct trivial

theorem all_finite_null : AllFinite .null := by
  intro y hy
  cases hy
  trivial

theorem all_finite_float {x : Single} (h : x.isFinite = true) : AllFinite (.float x) := by
  intro y hy
  cases hy
  exact h

theorem all_finite_double {x : Double} (h : x.isFinite = true) : AllFinite (.double x) := by
  intro y hy
  cases hy
  exact h

end Value

namespace Decode

open DataType

variable {o : Options} {s : Schema} {t : DataType} {x y : Value} {token : Json} {fs : List Field} {row : Row}
  {rows : List Row} {members : List (String × Json)}

def lenient (o : Options) : Options := { o with strictNumbers := false }

theorem scalars_lenient (o : Options) (t : DataType) : ScalarsTyped o (lenient o) t := by
  intro u _ v x hn h
  exact scalar_well_typed (o := o) nofun id hn h

theorem finite_well_typed (h : WellTyped (lenient o) t x) (hx : x.AllFinite) : WellTyped o t x := by
  induction h with
  | null t => exact .null t
  | named _ ih => exact .named (ih hx)
  | boolean b => exact .boolean b
  | byte v => exact .byte v
  | short v => exact .short v
  | integer v => exact .integer v
  | long v => exact .long v
  | float _ => exact .float fun _ => hx _ .whole
  | double _ => exact .double fun _ => hx _ .whole
  | decimal d => exact .decimal d
  | string s => exact .string s
  | binary hbytes => exact .binary hbytes
  | date days => exact .date days
  | timestamp micros => exact .timestamp micros
  | array _ ih => exact .array fun v hv => ih v hv (Value.all_finite_array.mp hx v hv)
  | map hkeys _ ih => exact .map hkeys fun e he => ih e he (Value.all_finite_map.mp hx e he)
  | struct hlen _ ih =>
    exact .struct hlen fun p hp => ih p hp (Value.all_finite_struct.mp hx p.2 (List.of_mem_zip hp).2)

theorem field_read {again : List Value} {p : Field × Value} (hnames : (fs.map FieldOf.name).Nodup)
    (hmembers : Encode.fields fs row = .ok members) (hread : fields o fs members = .ok again) (hp : p ∈ fs.zip row)
    (hnull : p.2.isNull = false) : ∃ token y, Encode.value p.1.type p.2 = .ok token ∧ value o p.1.type token = .ok y := by
  have hkeys := hnames.sublist (Encode.fields_members hmembers).2
  obtain ⟨m, hm, hname, hvalue⟩ := Encode.field_member hp hnull hmembers
  have hlookup : Json.member? members p.1.name = some m.2 := by
    rw [hname]
    exact member_of_mem hkeys hm
  obtain ⟨i, hi⟩ := List.mem_iff_getElem?.mp hp
  obtain ⟨hf, -⟩ := List.getElem?_zip_eq_some.mp hi
  obtain ⟨y, -, hy⟩ := fields_at hread hf hlookup
  exact ⟨m.2, y, hvalue, hy⟩

/-- Null is not written, so what is read again of a row is the other values. -/
theorem finite_of_fields {again : List Value} (hlen : row.length = fs.length) (hnames : (fs.map FieldOf.name).Nodup)
    (hmembers : Encode.fields fs row = .ok members) (hread : fields o fs members = .ok again)
    (h : ∀ p ∈ fs.zip row, ∀ token y, Encode.value p.1.type p.2 = .ok token → value o p.1.type token = .ok y →
      p.2.AllFinite) : ∀ v ∈ row, v.AllFinite := by
  intro v hv
  rw [← List.map_snd_zip (Nat.le_of_eq hlen)] at hv
  obtain ⟨p, hp, rfl⟩ := List.mem_map.mp hv
  by_cases hnull : p.2.isNull = true
  · rw [Value.null_of_is_null hnull]
    exact Value.all_finite_null
  · rw [Bool.not_eq_true] at hnull
    obtain ⟨token, y, htoken, hy⟩ := field_read hnames hmembers hread hp hnull
    exact h p hp token y htoken hy

section Refused

variable (hstrict : o.strictNumbers = true)
include hstrict

theorem any_real_strict {f : Format} {l : Layout} {z : Floating f} {r : Double}
    (h : anyReal o t (Encode.real l z) = .ok r) : z.isFinite = true := by
  by_contra hz
  have hword (s : String) : anyReal o t (.str s) = .error (.numericLiteral s t.text) := by
    rw [anyReal, realWord, if_pos hstrict]
  rw [Encode.real, if_neg hz] at h
  split at h
  all_goals
    rw [hword] at h
    cases h

/-- What a strict reader reads again was written of finite numbers only. -/
theorem finite_of_read (h : WellTyped (lenient o) t x) (ht : t.repeatedName? id = none)
    (henc : Encode.value t x = .ok token) (hread : value o t token = .ok y) : x.AllFinite := by
  induction h generalizing token y with
  | named _ ih =>
    rw [Encode.value_alias] at henc
    rw [value_alias] at hread
    exact ih ht henc hread
  | float _ =>
    cases henc
    rw [value_scalar (t := .float) trivial (real_present ..)] at hread
    obtain ⟨r, hr, -⟩ := map_ok_inv hread
    exact Value.all_finite_float (any_real_strict hstrict hr)
  | double _ =>
    cases henc
    rw [value_scalar (t := .double) trivial (real_present ..)] at hread
    obtain ⟨r, hr, -⟩ := map_ok_inv hread
    exact Value.all_finite_double (any_real_strict hstrict hr)
  | array _ ih =>
    obtain ⟨tokens, htokens, rfl⟩ := Encode.value_array_inv henc
    rcases value_array_inv hread with rfl | ⟨_, ys, heq, hys, -⟩ | ⟨_, _, heq, -⟩
    · cases value_null_inv hread
    · cases heq
      refine Value.all_finite_array.mpr ?_
      intro v hv
      obtain ⟨token, htoken, hvenc⟩ := map_m_result htokens hv
      obtain ⟨y, -, hy⟩ := map_m_result hys htoken
      exact ih v hv ht hvenc hy
    · cases heq
  | map _ _ ih =>
    obtain ⟨members, hmembers, rfl⟩ := Encode.value_map_inv henc
    rcases value_map_inv hread with rfl | ⟨_, ys, heq, hys, -⟩
    · cases value_null_inv hread
    · cases heq
      refine Value.all_finite_map.mpr ?_
      intro e he
      obtain ⟨m, hm, heenc⟩ := map_m_result hmembers he
      obtain ⟨token, htoken, rfl⟩ := map_ok_inv heenc
      obtain ⟨y, -, hy⟩ := map_m_result hys hm
      obtain ⟨z, hz, -⟩ := map_ok_inv hy
      exact ih e he ht htoken hz
  | struct hlen _ ih =>
    obtain ⟨hfields, hpairs⟩ := repeated_among_none_iff.mp ht
    obtain ⟨members, hmembers, rfl⟩ := Encode.value_struct_inv henc
    rcases value_struct_inv hread with rfl | ⟨_, again, heq, hagain, -⟩
    · cases value_null_inv hread
    · cases heq
      refine Value.all_finite_struct.mpr (finite_of_fields hlen (List.pairwise_map.mpr hpairs) hmembers hagain ?_)
      intro p hp token y htoken hy
      exact ih p hp (hfields p.1 (List.of_mem_zip hp).1).2 htoken hy
  | _ =>
    intro z hz
    cases hz
    trivial

end Refused

/-- A strict reader reads the text of its own row exactly when every floating point number in the row is finite. -/
theorem strict_again_iff (hstrict : o.strictNumbers = true) {text : String} (h : record s o text = .ok rows)
    (hr : row ∈ rows) (henc : Encode.object s row = .ok token) (hdepth : token.depth < 128) (hbox : Boxless token) :
    (∃ again, record s o token.compact = .ok again) ↔ ∀ x, Value.Part x (.struct row) → x.Finite := by
  have hrow := record_well_typed (scalars_lenient o s.toType) h row hr
  constructor
  · rintro ⟨again, hagain⟩
    have htext := Json.of_text_compact (row_back hrow henc).settled hbox (Nat.le_of_lt_succ hdepth)
    obtain ⟨members, -, rfl⟩ := Encode.value_struct_inv henc
    rw [record, htext] at hagain
    obtain ⟨values, hvalues, -⟩ := map_ok_inv hagain
    have hread : value o s.toType (.obj members) = .ok (.struct values) := by
      rw [Schema.toType, value_object, hvalues]
      rfl
    refine finite_of_read hstrict hrow ?_ henc hread
    rw [Schema.toType, repeatedName?]
    exact s.distinct
  · intro hfinite
    exact ⟨_, record_boxless (finite_well_typed hrow hfinite) henc hdepth hbox⟩

/-- A single, and a double that is missing. -/
theorem strict_again_single :
    let s : Schema := ⟨[⟨"x", .float, true⟩, ⟨"y", .double, true⟩], rfl⟩
    let o : Options := { strictNumbers := true }
    let row : Row := [.float ⟨0x3fc00000#32⟩, .null]
    let token : Json := .obj [("x", .num "1.5")]
    o.strictNumbers = true ∧ record s o token.compact = .ok [row] ∧ row ∈ [row] ∧ Encode.object s row = .ok token ∧
      token.depth < 128 ∧ Boxless token ∧ ∃ again, record s o token.compact = .ok again := by
  intro s o row token
  have hfinite : Value.AllFinite (.struct row) := by
    have hsingle : Value.AllFinite (.float ⟨0x3fc00000#32⟩) := Value.all_finite_float (by decide)
    exact Value.all_finite_struct.mpr (by simpa [row] using ⟨hsingle, Value.all_finite_null⟩)
  have hrow : WellTyped o s.toType (.struct row) := by
    refine .struct rfl ?_
    simp only [s, row, List.zip_cons_cons, List.zip_nil_right, List.forall_mem_cons]
    exact ⟨.float fun _ => by decide, .null _, by simp⟩
  have hencode : Encode.object s row = .ok token := by
    have htext : (⟨0x3fc00000#32⟩ : Single).finiteText .recordSingle = ['1', '.', '5'] := by decide +kernel
    have hreal : Encode.real .recordSingle (⟨0x3fc00000#32⟩ : Single) = .num "1.5" := by
      rw [Encode.real, htext]
      rfl
    simp [s, row, Encode.object, Schema.toType, Encode.value, Encode.fields, Value.isNull, Encode.scalar, hreal]
    rfl
  have hbox : Boxless token := by
    refine .obj (by decide) ?_
    simpa using .num ⟨false, ['1'], ['5'], none, by decide, by decide, rfl, by simp⟩
  have hread : record s o token.compact = .ok [row] := by
    have hreread : (⟨0x3fc00000#32⟩ : Single).reread = ⟨0x3fc00000#32⟩ := by decide +kernel
    rw [record_boxless hrow hencode (by decide) hbox]
    simp [row, Value.reread, Value.mapReals, hreread]
  have hmem : row ∈ [row] := List.mem_singleton_self row
  exact ⟨rfl, hread, hmem, hencode, by decide, hbox,
    (strict_again_iff rfl hread hmem hencode (by decide) hbox).mpr hfinite⟩

/-- A literal beyond the doubles is read as an infinity, whose word is refused. -/
theorem infinite_double_refused :
    let s : Schema := ⟨[⟨"x", .double, true⟩], rfl⟩
    let o : Options := { strictNumbers := true }
    let row : Row := [.double (Floating.infinity false)]
    let token : Json := .obj [("x", .str "Infinity")]
    record s o (Json.obj [("x", .num "1e+400")]).compact = .ok [row] ∧ Encode.object s row = .ok token ∧
      token.depth < 128 ∧ record s o token.compact = .error (.numericLiteral "Infinity" "double") := by
  intro s o row token
  have hformed (p : List String → Prop) (hp : p ["x"]) : Json.Formed p (.obj [("x", .num "1e+400")]) :=
    .obj hp (by simpa using .num ⟨false, ['1'], [], some (false, "400".toList), by decide, by decide, rfl,
      by simp; decide⟩)
  have htoken (p : List String → Prop) (hp : p ["x"]) : Json.Formed p token := .obj hp (by simpa using .str _)
  have hread := Json.of_text_compact (hformed _ (by decide)) (hformed _ (by decide)) (by decide)
  have hagain := Json.of_text_compact (htoken _ (by decide)) (htoken _ (by decide)) (by decide)
  have hreal : scalar o .double (.num "1e+400") = .ok (.double (Floating.infinity false)) :=
    congrArg (fun x => Except.ok (Value.double x)) (by decide +kernel)
  refine ⟨?_, rfl, by decide, ?_⟩
  · have hvalue : value o .double (.num "1e+400") = .ok (.double (Floating.infinity false)) :=
      (value_scalar (t := .double) trivial rfl).trans hreal
    rw [record, hread]
    simp [s, fields, Json.member?, hvalue]
    rfl
  · rw [record, hagain]
    rfl

end Decode

end TypedRecords
