import TypedRecords.Schema.Basic
/-!
# Column types

The types of columnar data and the column type of each data type. Binary values have no text form that
a column could be read from, so they have no column type.
-/

namespace TypedRecords

/-- Lists name their item, maps their entries; entries are a struct of keys and values. -/
inductive ColumnType where
  | null
  | boolean
  | int8
  | int16
  | int32
  | int64
  | float32
  | float64
  | utf8
  | date32
  | decimal128 (precision scale : Nat)
  | timestampMicros (zone : String)
  | list (item : FieldOf ColumnType)
  | map (entries : FieldOf ColumnType) (sorted : Bool)
  | struct (fields : List (FieldOf ColumnType))
  deriving Repr, Inhabited

abbrev Column := FieldOf ColumnType

namespace ColumnType

def maxScale : Nat := 127

def utcZone : String := "+00:00"

def ofDecimal (precision scale : Nat) : Except Error ColumnType :=
  if scale ≤ maxScale then .ok (.decimal128 precision scale)
  else .error (.output s!"Decimal scale {scale} exceeds Arrow limits")

mutual

def ofType : DataType → Except Error ColumnType
  | .null => .ok .null
  | .string => .ok .utf8
  | .boolean => .ok .boolean
  | .byte => .ok .int8
  | .short => .ok .int16
  | .integer => .ok .int32
  | .long => .ok .int64
  | .float => .ok .float32
  | .double => .ok .float64
  | .decimal p s => ofDecimal p s
  | .date => .ok .date32
  | .timestamp => .ok (.timestampMicros utcZone)
  | .binary => .error (.output "Binary columns cannot be converted from JSON text")
  | .array e n => (ofType e).map fun c => .list ⟨"item", c, n⟩
  | .map v n => (ofType v).map fun c =>
    .map ⟨"entries", .struct [⟨"keys", .utf8, false⟩, ⟨"values", c, n⟩], false⟩ false
  | .struct fs => (ofFields fs).map .struct
  | .alias _ t => ofType t

def ofFields : List Field → Except Error (List Column)
  | [] => .ok []
  | ⟨name, t, nullable⟩ :: fs => do
    let c ← ofType t
    (ofFields fs).map (⟨name, c, nullable⟩ :: ·)

end

def ofSchema (s : Schema) : Except Error (List Column) := ofFields s.fields

end ColumnType

end TypedRecords
