import TypedRecords.Calendar.Reader
import TypedRecords.DataType.Canonical
import TypedRecords.DataType.Merge
import TypedRecords.Json.Reader
import TypedRecords.Sampling.Sampler
import TypedRecords.Schema.Basic
/-!
# Schema inference

Every record has a type of its own. The types of all records are merged at the root, where an array
stands for its elements, and the canonical form of the result gives the schema.
-/

namespace TypedRecords.Inference

/-- Whether a text begins with a shape: `0` stands for any digit, `_` for a `T` or a space. -/
def startsWithShape : List Char → List Char → Bool
  | [], _ => true
  | p :: ps, c :: cs =>
    (if p = '0' then Text.isDigit c else if p = '_' then c == 'T' || c == ' ' else c == p) &&
      startsWithShape ps cs
  | _ :: _, [] => false

def dateShape : List Char := "0000-00-00".toList

def timestampShape : List Char := "0000-00-00_00:00:00".toList

def looksLikeDate (s : String) : Bool :=
  s.toList.length == dateShape.length && startsWithShape dateShape s.toList

def looksLikeTimestamp (s : String) : Bool := startsWithShape timestampShape s.toList

def typeOfString (o : Options) (s : String) : DataType :=
  if s.isEmpty && o.emptyStringAsNull then .null
  else if o.inferTimestamps && looksLikeDate s && (Calendar.readDate? s).isSome then .date
  else if o.inferTimestamps && looksLikeTimestamp s && (Calendar.readTimestamp? s).isSome then
    .timestamp
  else .string

/-- Whole numbers are decimals beyond 64 bits; others are decimals only where options prefer them. -/
def typeOfNumber (o : Options) (literal : String) : DataType :=
  if (Literal.long? literal).isSome then .long
  else if Literal.isIntegral literal then
    let digits := Literal.integralDigits literal
    if digits ≤ maxPrecision then .decimal digits 0 else .double
  else if o.prefersDecimal then
    match (Literal.parse? literal).bind Literal.decimalType? with
    | some (precision, scale) => .decimal precision scale
    | none => .double
  else .double

mutual

def typeOf (o : Options) : Json → DataType
  | .null => .null
  | .bool _ => .boolean
  | .str s => typeOfString o s
  | .num literal => typeOfNumber o literal
  | .arr items => .array (typeOfItems o .null items) true
  | .obj members => .struct (typeOfMembers o members)

def typeOfItems (o : Options) (seen : DataType) : List Json → DataType
  | [] => seen
  | v :: vs => typeOfItems o (seen.merge (typeOf o v)) vs

def typeOfMembers (o : Options) : List (String × Json) → List Field
  | [] => []
  | (key, v) :: rest =>
    DataType.enterField (fun t _ => t) key (typeOf o v) (typeOfMembers o rest)

end

def corruptType (o : Options) : DataType :=
  match o.corruptColumn with
  | some name => .struct [⟨name, .string, true⟩]
  | none => .null

/-- A text that cannot be read has the type of the column that keeps it. -/
def typeOfRecord (o : Options) (text : String) : DataType :=
  match Json.ofText? text with
  | some v => typeOf o v
  | none => corruptType o

def elementType : DataType → DataType
  | .array e _ => elementType e
  | t => t

/-- Merges the types of records that are no arrays. Beside a struct, a record of any other shape is a
corrupt one. -/
def mergeElements (o : Options) (a b : DataType) : DataType :=
  match a, b with
  | .null, t => t
  | t, .null => t
  | .struct fs, .struct gs => (DataType.struct fs).merge (.struct gs)
  | .struct fs, _ => (DataType.struct fs).merge (corruptType o)
  | _, .struct gs => (DataType.struct gs).merge (corruptType o)
  | a, b => a.merge b

/-- Merges the types of records. The elements of an array on the right take the left place, which
matters only between structs in which a name repeats. -/
def mergeRoot (o : Options) (a b : DataType) : DataType :=
  match b with
  | .array e _ => mergeElements o (elementType e) (elementType a)
  | b => mergeElements o (elementType a) b

def mergeAllRoots (o : Options) (ts : List DataType) : DataType := ts.foldl (mergeRoot o) .null

def schemaOfRoot (o : Options) (root : DataType) : Except Error Schema :=
  match root.canonical? with
  | some t => Schema.ofType t o.caseSensitive
  | none => .ok .empty

end Inference

def inferSchema (o : Options) (records : List String) : Except Error Schema := do
  o.validate
  let sampler ← Sampler.ofRatio o.samplingRatio o.samplingSeed
  Inference.schemaOfRoot o
    (Inference.mergeAllRoots o ((sampler.sample records).map (Inference.typeOfRecord o)))

end TypedRecords
