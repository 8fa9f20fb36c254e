import TypedRecords.Columnar.Cell
import TypedRecords.Proofs.DataType.Plain
import TypedRecords.Proofs.Row.Sequence
/-!
# The columns of a type

What the column of a type is made of: the columns of its parts, with their names and flags. Every type without binary
values and with valid decimals has a column that can be built.
-/

namespace TypedRecords.ColumnType

variable {t e w : DataType} {n : Bool} {fs : List Field} {c : ColumnType} {columns : List Column} {p s : Nat}

theorem of_type_decimal (h : ofType (.decimal p s) = .ok c) : c = .decimal128 p s := by
  rw [ofType, ofDecimal] at h
  split at h
  · exact (Except.ok.inj h).symm
  · contradiction

theorem of_type_array (h : ofType (.array e n) = .ok c) : ∃ item, ofType e = .ok item ∧ c = .list ⟨"item", item, n⟩ := by
  rw [ofType] at h
  exact map_ok_inv h

theorem of_type_map (h : ofType (.map w n) = .ok c) : ∃ item, ofType w = .ok item ∧
    c = .map ⟨"entries", .struct [⟨"keys", .utf8, false⟩, ⟨"values", item, n⟩], false⟩ false := by
  rw [ofType] at h
  exact map_ok_inv h

theorem of_type_struct (h : ofType (.struct fs) = .ok c) : ∃ columns, ofFields fs = .ok columns ∧ c = .struct columns := by
  rw [ofType] at h
  exact map_ok_inv h

theorem of_type_alias (name : String) (t : DataType) : ofType (.alias name t) = ofType t := by
  rw [ofType]

theorem of_fields_cons {f : Field} (h : ofFields (f :: fs) = .ok columns) : ∃ c rest,
    ofType f.type = .ok c ∧ ofFields fs = .ok rest ∧ columns = ⟨f.name, c, f.nullable⟩ :: rest := by
  obtain ⟨name, t, own⟩ := f
  rw [ofFields] at h
  obtain ⟨c, hc, h⟩ := bind_ok_inv h
  obtain ⟨rest, hrest, rfl⟩ := map_ok_inv h
  exact ⟨c, rest, hc, hrest, rfl⟩

theorem of_fields_length (h : ofFields fs = .ok columns) : columns.length = fs.length := by
  induction fs generalizing columns with
  | nil =>
    rw [ofFields] at h
    cases h
    rfl
  | cons f fs ih =>
    obtain ⟨c, rest, -, hrest, rfl⟩ := of_fields_cons h
    rw [List.length_cons, List.length_cons, ih hrest]

def HasColumn : DataType → Prop
  | .binary => False
  | .decimal p s => Batch.storableDecimal p s = true
  | _ => True

theorem of_decimal_storable (h : Batch.storableDecimal p s = true) : ofDecimal p s = .ok (.decimal128 p s) := by
  simp only [Batch.storableDecimal, Bool.and_eq_true, decide_eq_true_eq] at h
  obtain ⟨⟨-, hp⟩, hs⟩ := h
  apply if_pos
  exact hs.trans (hp.trans (by decide))

mutual

theorem of_type_exists : (t : DataType) → t.Every HasColumn → ∃ c, ofType t = .ok c ∧ Batch.storable c = true
  | .array e n, h => by
    obtain ⟨c, hc, hstorable⟩ := of_type_exists e h.2
    rw [ofType, hc]
    exact ⟨_, rfl, hstorable⟩
  | .map w n, h => by
    obtain ⟨c, hc, hstorable⟩ := of_type_exists w h.2
    rw [ofType, hc]
    refine ⟨_, rfl, ?_⟩
    simp only [Batch.storable, Batch.storableAll, hstorable, Bool.and_self]
  | .alias name t, h => by
    rw [of_type_alias]
    exact of_type_exists t h.2
  | .struct fs, h => by
    obtain ⟨columns, hcolumns, hstorable⟩ := of_fields_exists fs h.2
    rw [ofType, hcolumns]
    exact ⟨_, rfl, hstorable⟩
  | .decimal p s, h => by
    rw [ofType, of_decimal_storable h]
    exact ⟨_, rfl, h⟩
  | .null, _ | .string, _ | .boolean, _ | .byte, _ | .short, _ | .integer, _ | .long, _ | .float, _ | .double, _
  | .date, _ | .timestamp, _ => ⟨_, by rw [ofType], rfl⟩

theorem of_fields_exists : (fs : List Field) → DataType.EveryField HasColumn fs →
    ∃ columns, ofFields fs = .ok columns ∧ Batch.storableAll columns = true
  | [], _ => ⟨[], by rw [ofFields], rfl⟩
  | ⟨name, t, own⟩ :: fs, h => by
    obtain ⟨c, hc, hstorable⟩ := of_type_exists t h.1
    obtain ⟨columns, hcolumns, hall⟩ := of_fields_exists fs h.2
    refine ⟨⟨name, c, own⟩ :: columns, ?_, ?_⟩
    · rw [ofFields, hc, hcolumns]
      rfl
    · rw [Batch.storableAll, hstorable, hall]
      rfl

end

end TypedRecords.ColumnType
