import TypedRecords.Proofs.DataType.Numbers
/-!
# Plain types

The types that inference gives and merges: no aliases, and at every depth sorted nullable fields and decimals
within their bounds. They merge to plain types, structs name by name and other types within their family.
-/

namespace TypedRecords.DataType

mutual

def Every (p : DataType → Prop) : DataType → Prop
  | .array e n => p (.array e n) ∧ e.Every p
  | .map v n => p (.map v n) ∧ v.Every p
  | .alias name t => p (.alias name t) ∧ t.Every p
  | .struct fs => p (.struct fs) ∧ EveryField p fs
  | t => p t

def EveryField (p : DataType → Prop) : List Field → Prop
  | [] => True
  | ⟨_, t, _⟩ :: fs => t.Every p ∧ EveryField p fs

end

theorem every_field_iff {p : DataType → Prop} {fs : List Field} :
    EveryField p fs ↔ ∀ f ∈ fs, f.type.Every p := by
  induction fs with
  | nil => simp [EveryField]
  | cons f fs ih => simp [EveryField, ih]

theorem every_self {p : DataType → Prop} {t : DataType} (h : t.Every p) : p t := by
  cases t <;> first | exact h | exact h.1

mutual

theorem Every.imp {p q : DataType → Prop} (h : ∀ t, p t → q t) : (t : DataType) → t.Every p → t.Every q
  | .array e _, ht => ⟨h _ ht.1, Every.imp h e ht.2⟩
  | .map v _, ht => ⟨h _ ht.1, Every.imp h v ht.2⟩
  | .alias _ t, ht => ⟨h _ ht.1, Every.imp h t ht.2⟩
  | .struct fs, ht => ⟨h _ ht.1, EveryField.imp h fs ht.2⟩
  | .null, ht | .string, ht | .boolean, ht | .byte, ht | .short, ht | .integer, ht | .long, ht | .float, ht
  | .double, ht | .decimal _ _, ht | .date, ht | .timestamp, ht | .binary, ht => h _ ht

theorem EveryField.imp {p q : DataType → Prop} (h : ∀ t, p t → q t) :
    (fs : List Field) → EveryField p fs → EveryField q fs
  | [], _ => trivial
  | ⟨_, t, _⟩ :: fs, hfs => ⟨Every.imp h t hfs.1, EveryField.imp h fs hfs.2⟩

end

/-- What a plain type satisfies by itself. -/
def Tidy : DataType → Prop
  | .struct fs => Regular fs
  | .decimal p s => s ≤ p ∧ p ≤ maxPrecision
  | .alias _ _ => False
  | _ => True

def Plain (t : DataType) : Prop := t.Every Tidy

@[simp] theorem plain_array {e : DataType} {n : Bool} : Plain (.array e n) ↔ Plain e := and_iff_right trivial

@[simp] theorem plain_map {v : DataType} {n : Bool} : Plain (.map v n) ↔ Plain v := and_iff_right trivial

theorem plain_struct {fs : List Field} :
    Plain (.struct fs) ↔ Regular fs ∧ ∀ f ∈ fs, Plain f.type := and_congr_right' every_field_iff

@[simp] theorem plain_decimal {p s : Nat} : Plain (.decimal p s) ↔ s ≤ p ∧ p ≤ maxPrecision := Iff.rfl

@[simp] theorem not_plain_alias {name : String} {t : DataType} : ¬ Plain (.alias name t) := fun h => h.1

theorem of_span_plain (x : Span) : (ofSpan x).Plain := by
  have hv := of_span_decimal_valid x
  have hn := of_span_number x
  cases h : ofSpan x <;> simp_all [DecimalValid, isNumber, isPrimitiveNumeric, isIntegral, integralRank?,
    isFloating, Plain, Every, Tidy]

theorem Plain.decimal_valid {t : DataType} (h : t.Plain) : t.DecimalValid := by
  cases t <;> simp_all [DecimalValid]

theorem plain_field {fs : List Field} {name : String} {t : DataType} (h : Plain (.struct fs))
    (ht : fieldType? name fs = some t) : t.Plain := by
  obtain ⟨f, hf, -, rfl⟩ := field_type_mem ht
  exact (plain_struct.mp h).2 f hf

theorem field_type_size {fs : List Field} {name : String} {t : DataType}
    (ht : fieldType? name fs = some t) : t.size < size (.struct fs) := by
  obtain ⟨f, hf, -, rfl⟩ := field_type_mem ht
  have := fields_size_mem hf
  simp only [size]
  omega

theorem merge_struct_regular {fs gs : List Field} (hf : Regular fs) (hg : Regular gs) :
    merge (.struct fs) (.struct gs) = .struct (mergeFields merge fs gs) := by
  by_cases h : fs = gs
  · subst h
    rw [merge_self]
    congr 1
    refine hf.ext merge_fields_regular fun name => ?_
    rw [merge_fields_type hf hf]
    cases fieldType? name fs <;> simp
  · exact merge_struct h

/-- The sorts of types that merge with their own only. -/
inductive Family where
  | null
  | number
  | boolean
  | temporal
  | binary
  | string
  | array
  | struct
  | map
  | named
  deriving DecidableEq, Repr

def family : DataType → Family
  | .null => .null
  | .boolean => .boolean
  | .date => .temporal
  | .timestamp => .temporal
  | .binary => .binary
  | .string => .string
  | .array _ _ => .array
  | .struct _ => .struct
  | .map _ _ => .map
  | .alias _ _ => .named
  | _ => .number

theorem number_iff_family (t : DataType) : t.isNumber = true ↔ t.family = .number := by
  cases t <;> simp [isNumber, isPrimitiveNumeric, isIntegral, integralRank?, isFloating, family]

theorem Plain.family_ne_named {t : DataType} (h : t.Plain) : t.family ≠ .named := by
  cases t <;> simp_all [family]

theorem alias_of_family {t : DataType} (h : t.family = .named) : ∃ name s, t = .alias name s := by
  cases t <;> simp_all [family]

theorem null_of_family {t : DataType} (h : t.family = .null) : t = .null := by
  cases t <;> simp_all [family]

theorem string_of_family {t : DataType} (h : t.family = .string) : t = .string := by
  cases t <;> simp_all [family]

theorem array_of_family {t : DataType} (h : t.family = .array) : ∃ e n, t = .array e n := by
  cases t <;> simp_all [family]

theorem map_of_family {t : DataType} (h : t.family = .map) : ∃ v n, t = .map v n := by
  cases t <;> simp_all [family]

theorem struct_of_family {t : DataType} (h : t.family = .struct) : ∃ fs, t = .struct fs := by
  cases t <;> simp_all [family]

/-- Tidy at every depth, aliases apart; what they are stored as is so too. -/
def Orderly (t : DataType) : Prop := t.Every fun s => s.family ≠ .named → Tidy s

@[simp] theorem orderly_array {e : DataType} {n : Bool} : Orderly (.array e n) ↔ Orderly e :=
  and_iff_right fun _ => trivial

@[simp] theorem orderly_map {v : DataType} {n : Bool} : Orderly (.map v n) ↔ Orderly v :=
  and_iff_right fun _ => trivial

@[simp] theorem orderly_alias {name : String} {t : DataType} : Orderly (.alias name t) ↔ Orderly t :=
  and_iff_right fun h => absurd rfl h

theorem orderly_struct {fs : List Field} :
    Orderly (.struct fs) ↔ Regular fs ∧ ∀ f ∈ fs, Orderly f.type := by
  apply and_congr _ every_field_iff
  constructor
  · intro h
    exact h nofun
  · intro h _
    exact h

theorem orderly_field {fs : List Field} {name : String} {t : DataType} (h : Orderly (.struct fs))
    (ht : fieldType? name fs = some t) : t.Orderly := by
  obtain ⟨f, hf, -, rfl⟩ := field_type_mem ht
  exact (orderly_struct.mp h).2 f hf

theorem Plain.orderly {t : DataType} (h : t.Plain) : t.Orderly := by
  have himp (s : DataType) (hs : Tidy s) : s.family ≠ .named → Tidy s := fun _ => hs
  exact Every.imp himp t h

end TypedRecords.DataType
