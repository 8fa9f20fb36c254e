import TypedRecords.DataType.Basic
/-!
# Canonical types

The form of a type in which every position can hold values: `null` becomes `string`, fields without a
name are dropped, and so is whatever holds a struct without fields.
-/

namespace TypedRecords.DataType

mutual

/-- None when nothing remains of the type. Aliases are kept as they are. -/
def canonical? : DataType → Option DataType
  | .null => some .string
  | .array e n => e.canonical?.map (.array · n)
  | .map v n => v.canonical?.map (.map · n)
  | .struct fs =>
    match canonicalFields fs with
    | [] => none
    | g :: gs => some (.struct (g :: gs))
  | t => some t

def canonicalFields : List Field → List Field
  | [] => []
  | ⟨name, t, nullable⟩ :: fs =>
    if name = "" then canonicalFields fs
    else match t.canonical? with
      | some u => ⟨name, u, nullable⟩ :: canonicalFields fs
      | none => canonicalFields fs

end

end TypedRecords.DataType
