import TypedRecords.Decimal.Basic
/-!
# Values

The values of rows. A row holds one value for each field of its schema.
-/

namespace TypedRecords

/-- Dates count days and timestamps microseconds from the epoch; maps keep the order of their
entries. -/
inductive Value where
  | null
  | boolean (b : Bool)
  | byte (v : Int8)
  | short (v : Int16)
  | integer (v : Int32)
  | long (v : Int64)
  | float (v : Single)
  | double (v : Double)
  | decimal (d : Decimal)
  | string (s : String)
  | binary (bytes : List UInt8)
  | date (days : Int32)
  | timestamp (micros : Int64)
  | array (items : List Value)
  | map (entries : List (String × Value))
  | struct (row : List Value)
  deriving Repr, Inhabited

abbrev Row := List Value

namespace Value

def isNull : Value → Bool
  | .null => true
  | _ => false

def kind : Value → String
  | .null => "null"
  | .boolean _ => "boolean"
  | .byte _ => "byte"
  | .short _ => "short"
  | .integer _ => "integer"
  | .long _ => "long"
  | .float _ => "float"
  | .double _ => "double"
  | .decimal _ => "decimal"
  | .string _ => "string"
  | .binary _ => "binary"
  | .date _ => "date"
  | .timestamp _ => "timestamp"
  | .array _ => "array"
  | .map _ => "map"
  | .struct _ => "struct"

def string? : Value → Option String
  | .string s => some s
  | _ => none

def long? : Value → Option Int64
  | .long v => some v
  | _ => none

def row? : Value → Option Row
  | .struct row => some row
  | _ => none

mutual

/-- Equality by value: NaN differs from itself, both zeros are equal. -/
def equals : Value → Value → Bool
  | .null, .null => true
  | .boolean a, .boolean b => a == b
  | .byte a, .byte b => a == b
  | .short a, .short b => a == b
  | .integer a, .integer b => a == b
  | .long a, .long b => a == b
  | .float a, .float b => a.equals b
  | .double a, .double b => a.equals b
  | .decimal a, .decimal b => a == b
  | .string a, .string b => a == b
  | .binary a, .binary b => a == b
  | .date a, .date b => a == b
  | .timestamp a, .timestamp b => a == b
  | .array a, .array b => equalRows a b
  | .map a, .map b => equalEntries a b
  | .struct a, .struct b => equalRows a b
  | _, _ => false

def equalRows : List Value → List Value → Bool
  | [], [] => true
  | a :: as, b :: bs => a.equals b && equalRows as bs
  | _, _ => false

def equalEntries : List (String × Value) → List (String × Value) → Bool
  | [], [] => true
  | (k, a) :: as, (k', b) :: bs => k == k' && a.equals b && equalEntries as bs
  | _, _ => false

end

end Value

namespace Row

def nulls (size : Nat) : Row := List.replicate size .null

/-- Replaces the value at a position; a position outside the row changes nothing. -/
def put (row : Row) (position : Nat) (v : Value) : Row := row.set position v

end Row

end TypedRecords
