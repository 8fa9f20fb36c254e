import TypedRecords.Proofs.Row.Record
import TypedRecords.Proofs.Row.Typed
/-!
# Rows without floating point numbers

A row of such a schema is read from its own text as it is, under the options that it was read with before.
-/

namespace TypedRecords

open Json (Settled Boxless)

namespace DataType

def Realless (t : DataType) : Prop := ¬ Part .float t ∧ ¬ Part .double t

theorem Realless.ne {t u : DataType} (h : Realless t) (hpart : Part u t) : u ≠ .float ∧ u ≠ .double := by
  constructor
  · rintro rfl
    exact h.1 hpart
  · rintro rfl
    exact h.2 hpart

theorem Realless.of_part {t u : DataType} (h : Realless t) (hpart : ∀ p, Part p u → Part p t) : Realless u :=
  ⟨fun hfloat => h.1 (hpart _ hfloat), fun hdouble => h.2 (hpart _ hdouble)⟩

theorem realless_scalar {t : DataType} (ht : Decode.IsScalar t) (hfloat : t ≠ .float) (hdouble : t ≠ .double) :
    Realless t := by
  have hself {u : DataType} (hpart : Part u t) : u = t := by
    cases hpart with
    | here => rfl
    | _ => cases ht
  exact ⟨fun h => hfloat (hself h).symm, fun h => hdouble (hself h).symm⟩

theorem realless_struct {fs : List Field} (h : ∀ f ∈ fs, Realless f.type) : Realless (.struct fs) := by
  constructor
  · intro hpart
    cases hpart with
    | field hf hpart => exact (h _ hf).1 hpart
  · intro hpart
    cases hpart with
    | field hf hpart => exact (h _ hf).2 hpart

end DataType

open DataType

variable {o : Options} {s : Schema} {t : DataType} {x : Value} {row : Row} {rows : List Row} {token : Json}
  {text : String}

theorem reread_self (hreal : Realless t) (h : WellTyped o t x) : x.reread = x := by
  induction h with
  | float _ => exact absurd rfl (hreal.ne .here).1
  | double _ => exact absurd rfl (hreal.ne .here).2
  | named _ ih => exact ih (hreal.of_part fun _ => .storage)
  | array _ ih =>
    have hitem := hreal.of_part fun _ => Part.element
    rw [Value.reread, Value.mapReals, Value.map_reals_all_eq]
    congr 1
    exact (List.map_congr_left fun v hv => ih v hv hitem).trans (List.map_id _)
  | map _ _ ih =>
    have hvalue := hreal.of_part fun _ => Part.value
    rw [Value.reread, Value.mapReals, Value.map_reals_entries_eq]
    congr 1
    exact (List.map_congr_left fun e he => congrArg (e.1, ·) (ih e he hvalue)).trans (List.map_id _)
  | @struct fs row hlen _ ih =>
    rw [Value.reread, Value.mapReals, Value.map_reals_all_eq]
    congr 1
    refine (List.map_congr_left fun v hv => ?_).trans (List.map_id _)
    rw [← List.map_snd_zip (Nat.le_of_eq hlen)] at hv
    obtain ⟨p, hp, rfl⟩ := List.mem_map.mp hv
    exact ih p hp (hreal.of_part fun _ => Part.field (List.of_mem_zip hp).1)
  | _ => rfl

namespace Decode

theorem scalars_realless (hreal : Realless t) : ScalarsTyped o o t := by
  intro u hpart v x hn h
  exact scalar_well_typed (fun _ => hreal.ne hpart) id hn h

theorem record_same (hreal : Realless s.toType) (hrow : WellTyped o s.toType (.struct row))
    (henc : Encode.object s row = .ok token) (hdepth : token.depth < 128) (hbox : Boxless token) :
    record s o token.compact = .ok [row] := by
  have hreread := reread_self hreal hrow
  rw [Value.reread, Value.mapReals, Value.map_reals_all_eq] at hreread
  have hread := record_boxless hrow henc hdepth hbox
  rw [Value.reread] at hread
  rwa [Value.struct.inj hreread] at hread

theorem corrupt_rows_length (s : Schema) (o : Options) (text : String) : (corruptRows s o text).length ≤ 1 := by
  unfold corruptRows
  split
  · exact le_refl 1
  · exact Nat.zero_le 1

theorem corrupt_row_text (hrow : row ∈ corruptRows s o text) : Encode.row s row ≠ .ok text := by
  intro henc
  obtain ⟨token, htoken, rfl⟩ := map_ok_inv henc
  exact corrupt_rows_differ htoken row hrow rfl

end Decode

end TypedRecords
