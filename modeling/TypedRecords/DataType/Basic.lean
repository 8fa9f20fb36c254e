/-!
# Data types

The types of columns and of the values nested in them, their text, and the views that look through
aliases.
-/

namespace TypedRecords

structure FieldOf (α : Type) where
  name : String
  type : α
  nullable : Bool
  deriving DecidableEq, Repr

/-- `alias` names a type stored as another one. Map keys are always strings. -/
inductive DataType where
  | null
  | string
  | boolean
  | byte
  | short
  | integer
  | long
  | float
  | double
  | decimal (precision scale : Nat)
  | date
  | timestamp
  | binary
  | array (element : DataType) (containsNull : Bool)
  | struct (fields : List (FieldOf DataType))
  | map (value : DataType) (valueContainsNull : Bool)
  | alias (name : String) (storage : DataType)
  deriving Repr, Inhabited

abbrev Field := FieldOf DataType

namespace DataType

mutual

def same : DataType → DataType → Bool
  | .null, .null => true
  | .string, .string => true
  | .boolean, .boolean => true
  | .byte, .byte => true
  | .short, .short => true
  | .integer, .integer => true
  | .long, .long => true
  | .float, .float => true
  | .double, .double => true
  | .decimal p s, .decimal p' s' => p == p' && s == s'
  | .date, .date => true
  | .timestamp, .timestamp => true
  | .binary, .binary => true
  | .array e n, .array e' n' => e.same e' && n == n'
  | .struct fs, .struct gs => sameFields fs gs
  | .map v n, .map v' n' => v.same v' && n == n'
  | .alias n t, .alias n' t' => n == n' && t.same t'
  | _, _ => false

def sameFields : List Field → List Field → Bool
  | [], [] => true
  | ⟨n, t, b⟩ :: fs, ⟨n', t', b'⟩ :: gs => n == n' && t.same t' && b == b' && sameFields fs gs
  | _, _ => false

end

mutual

theorem same_iff : (a b : DataType) → (a.same b = true ↔ a = b)
  | a, b => by cases a <;> cases b <;> simp [same, same_iff, same_fields_iff]

theorem same_fields_iff : (fs gs : List Field) → (sameFields fs gs = true ↔ fs = gs)
  | [], [] => by simp [sameFields]
  | [], _ :: _ => by simp [sameFields]
  | _ :: _, [] => by simp [sameFields]
  | ⟨n, t, b⟩ :: fs, ⟨n', t', b'⟩ :: gs => by
    simp [sameFields, same_iff t t', same_fields_iff fs gs, and_assoc]

end

instance : DecidableEq DataType := fun a b => decidable_of_iff _ (same_iff a b)

def resolve : DataType → DataType
  | .alias _ t => t.resolve
  | t => t

mutual

def size : DataType → Nat
  | .array e _ => e.size + 1
  | .struct fs => fieldsSize fs + 1
  | .map v _ => v.size + 1
  | .alias _ t => t.size + 1
  | _ => 1

def fieldsSize : List Field → Nat
  | [] => 0
  | ⟨_, t, _⟩ :: fs => t.size + fieldsSize fs

end

def integralRank? : DataType → Option Nat
  | .byte => some 0
  | .short => some 1
  | .integer => some 2
  | .long => some 3
  | _ => none

/-- Decimal digits set aside for the values of an integral type. -/
def integralDigits? : DataType → Option Nat
  | .byte => some 3
  | .short => some 5
  | .integer => some 10
  | .long => some 20
  | _ => none

def isIntegral (t : DataType) : Bool := t.integralRank?.isSome

def isFloating : DataType → Bool
  | .float => true
  | .double => true
  | _ => false

def isPrimitiveNumeric (t : DataType) : Bool := t.isIntegral || t.isFloating

def fields? (t : DataType) : Option (List Field) :=
  match t.resolve with
  | .struct fs => some fs
  | _ => none

mutual

def text : DataType → String
  | .null => "null"
  | .string => "string"
  | .boolean => "boolean"
  | .byte => "byte"
  | .short => "short"
  | .integer => "integer"
  | .long => "long"
  | .float => "float"
  | .double => "double"
  | .decimal p s => s!"decimal({p},{s})"
  | .date => "date"
  | .timestamp => "timestamp"
  | .binary => "binary"
  | .array e _ => "array<" ++ e.text ++ ">"
  | .struct fs => "struct<" ++ fieldsText fs ++ ">"
  | .map v _ => "map<string," ++ v.text ++ ">"
  | .alias name _ => name

def fieldsText : List Field → String
  | [] => ""
  | [⟨name, t, _⟩] => name ++ ":" ++ t.text
  | ⟨name, t, _⟩ :: fs => name ++ ":" ++ t.text ++ "," ++ fieldsText fs

end

end DataType

end TypedRecords
