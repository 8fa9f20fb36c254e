import TypedRecords.Proofs.Schema.Distinct
/-!
# Types without aliases

A type with every alias in it replaced by the type that it is stored as. The names of its fields stay, so a schema
stays a schema.
-/

namespace TypedRecords

namespace DataType

mutual

def unaliased : DataType → DataType
  | .alias _ t => t.unaliased
  | .array e n => .array e.unaliased n
  | .struct fs => .struct (unaliasedFields fs)
  | .map v n => .map v.unaliased n
  | t => t

def unaliasedFields : List Field → List Field
  | [] => []
  | ⟨name, t, nullable⟩ :: fs => ⟨name, t.unaliased, nullable⟩ :: unaliasedFields fs

end

variable {key : String → String} {name : String} {s : DataType}

theorem unaliased_fields_eq (fs : List Field) :
    unaliasedFields fs = fs.map fun f => ⟨f.name, f.type.unaliased, f.nullable⟩ := by
  induction fs with
  | nil => rfl
  | cons f fs ih => rw [unaliasedFields, ih, List.map_cons]

mutual

theorem unaliased_part : (t : DataType) → ¬ Part (.alias name s) t.unaliased
  | .alias _ t, h => unaliased_part t (by rwa [unaliased] at h)
  | .array e _, h => by
    rw [unaliased] at h
    cases h with
    | element h => exact unaliased_part e h
  | .map v _, h => by
    rw [unaliased] at h
    cases h with
    | value h => exact unaliased_part v h
  | .struct fs, h => by
    rw [unaliased] at h
    cases h with
    | field hf h => exact unaliased_fields_part fs hf h
  | .null, h | .string, h | .boolean, h | .byte, h | .short, h | .integer, h | .long, h | .float, h
  | .double, h | .decimal _ _, h | .date, h | .timestamp, h | .binary, h => by cases h

theorem unaliased_fields_part {f : Field} :
    (fs : List Field) → f ∈ unaliasedFields fs → ¬ Part (.alias name s) f.type
  | [], hf, _ => List.not_mem_nil hf
  | ⟨_, t, _⟩ :: fs, hf, h => by
    rcases List.mem_cons.mp hf with rfl | hf
    · exact unaliased_part t h
    · exact unaliased_fields_part fs hf h

end

theorem unaliased_resolve_string : (t : DataType) → (t.unaliased.resolve = .string ↔ t.resolve = .string)
  | .alias _ t => by rw [unaliased, unaliased_resolve_string t, resolve]
  | .array _ _ | .map _ _ | .struct _ | .null | .string | .boolean | .byte | .short | .integer | .long | .float
  | .double | .decimal _ _ | .date | .timestamp | .binary => by simp [unaliased, resolve]

mutual

theorem unaliased_repeated_name : (t : DataType) → t.unaliased.repeatedName? key = t.repeatedName? key
  | .alias _ t => by rw [unaliased, unaliased_repeated_name t, repeatedName?]
  | .array e _ => by rw [unaliased, repeatedName?, unaliased_repeated_name e, repeatedName?]
  | .map v _ => by rw [unaliased, repeatedName?, unaliased_repeated_name v, repeatedName?]
  | .struct fs => by rw [unaliased, repeatedName?, unaliased_repeated_among fs, repeatedName?]
  | .null | .string | .boolean | .byte | .short | .integer | .long | .float | .double | .decimal _ _
  | .date | .timestamp | .binary => rfl

theorem unaliased_repeated_among {seen : List String} :
    (fs : List Field) → repeatedAmong? key seen (unaliasedFields fs) = repeatedAmong? key seen fs
  | [] => rfl
  | ⟨n, t, _⟩ :: fs => by
    rw [unaliasedFields, repeatedAmong?, repeatedAmong?, unaliased_repeated_name t, unaliased_repeated_among fs]

end

end DataType

def Schema.unaliased (s : Schema) : Schema :=
  ⟨DataType.unaliasedFields s.fields, (DataType.unaliased_repeated_among s.fields).trans s.distinct⟩

end TypedRecords
