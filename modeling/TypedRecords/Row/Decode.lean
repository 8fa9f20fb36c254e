import TypedRecords.Calendar.Reader
import TypedRecords.Floating.Reader
import TypedRecords.Json.Reader
import TypedRecords.Json.Writer
import TypedRecords.Options.Basic
import TypedRecords.Row.Value
import TypedRecords.Schema.Basic
/-!
# Decoding records

A JSON value is read as a value of a declared type, and a record as the rows of a schema. A record that
is no object and no array of objects is kept as text in the corrupt column, if there is one.
-/

namespace TypedRecords

/-- The name of a value's kind in messages; a number without point and exponent is an integer. -/
def Json.kind : Json → String
  | .null => "null"
  | .bool _ => "boolean"
  | .num literal => if Literal.isIntegral literal then "integer" else "float"
  | .str _ => "string"
  | .arr _ => "array"
  | .obj _ => "object"

namespace Decode

def mismatch {α : Type} (t : DataType) (v : Json) : Except Error α :=
  .error (.undecodable v.kind t.text)

def whole (t : DataType) (literal : String) : Except Error Int :=
  match Literal.long? literal with
  | some z => .ok z
  | none =>
    if Literal.isIntegral literal then .error (.numericLiteral literal t.text)
    else .error (.undecodable "float" t.text)

def wholeWithin (bits : Nat) (t : DataType) (literal : String) : Except Error Int := do
  let z ← whole t literal
  if Fits bits z then .ok z
  else .error (.numericLiteral (String.ofList (Text.intDigits z)) t.text)

def secondsAsMicros (t : DataType) (literal : String) : Except Error Int := do
  let z ← whole t literal
  if Fits 64 (z * Calendar.microsPerSecond) then .ok (z * Calendar.microsPerSecond)
  else .error (.numericLiteral (String.ofList (Text.intDigits z)) t.text)

/-- The nearest floating point value; infinity beyond the largest. -/
def real {f : Format} (literal : String) : Floating f :=
  (Floating.number? literal.toList).getD Floating.zero

/-- The words for numbers that are not finite, in any case, unless they are refused. -/
def realWord (o : Options) (t : DataType) (s : String) : Except Error Double :=
  let word := s.toList.map Char.toLower
  if o.strictNumbers then .error (.numericLiteral s t.text)
  else if word = "nan".toList then .ok Floating.nan
  else if word = "infinity".toList ∨ word = "inf".toList then .ok (Floating.infinity false)
  else if word = "-infinity".toList ∨ word = "-inf".toList then .ok (Floating.infinity true)
  else .error (.numericLiteral s t.text)

def anyReal (o : Options) (t : DataType) (v : Json) : Except Error Double :=
  match v with
  | .num literal => .ok (real literal)
  | .str s => realWord o t s
  | v => mismatch t v

def date (s : String) : Except Error Int :=
  match Calendar.readDate? s with
  | some days => .ok days
  | none => .error (.temporalLiteral s "date")

def timestamp (s : String) : Except Error Int :=
  match Calendar.readTimestamp? s with
  | some micros => .ok micros
  | none => .error (.temporalLiteral s "timestamp")

def scalar (o : Options) (t : DataType) (v : Json) : Except Error Value :=
  match t, v with
  | .string, .str s => .ok (.string s)
  | .string, v => .ok (.string v.compact)
  | .boolean, .bool b => .ok (.boolean b)
  | .byte, .num literal => (wholeWithin 8 t literal).map fun z => .byte (Int8.ofInt z)
  | .short, .num literal => (wholeWithin 16 t literal).map fun z => .short (Int16.ofInt z)
  | .integer, .num literal => (wholeWithin 32 t literal).map fun z => .integer (Int32.ofInt z)
  | .long, .num literal => (whole t literal).map fun z => .long (Int64.ofInt z)
  | .float, v => (anyReal o t v).map fun x => .float x.convert
  | .double, v => (anyReal o t v).map fun x => .double x
  | .decimal p s, .num literal => (Decimal.ofLiteral literal p s).map .decimal
  | .binary, .str s =>
    match Text.Base64.decode s.toUTF8.data.toList with
    | .ok bytes => .ok (.binary bytes)
    | .error fault => .error (.base64 fault)
  | .date, .str s => (date s).map fun days => .date (Int32.ofInt days)
  | .date, .num literal => (wholeWithin 32 t literal).map fun z => .date (Int32.ofInt z)
  | .timestamp, .str s => (timestamp s).map fun micros => .timestamp (Int64.ofInt micros)
  | .timestamp, .num literal =>
    (secondsAsMicros t literal).map fun z => .timestamp (Int64.ofInt z)
  | t, v => mismatch t v

/-- The tokens that mean null for a type: `null`, and where options say so the empty string, except
for strings. -/
def isNullFor (o : Options) (t : DataType) (v : Json) : Bool :=
  match v with
  | .null => true
  | .str s => s.isEmpty && o.emptyStringAsNull && t.resolve != .string
  | _ => false

mutual

/-- The value that a token has as a value of a type. A single object stands for an array of one. -/
def value (o : Options) (t : DataType) (v : Json) : Except Error Value :=
  if isNullFor o t v then .ok .null
  else match t with
    | .alias _ s => value o s v
    | .array e _ =>
      match v with
      | .arr items => (items.mapM (value o e)).map .array
      | .obj _ => (value o e v).map fun x => .array [x]
      | v => mismatch t v
    | .struct fs =>
      match v with
      | .obj members => (fields o fs members).map .struct
      | v => mismatch t v
    | .map w _ =>
      match v with
      | .obj members => (members.mapM fun m => (value o w m.2).map (m.1, ·)).map .map
      | v => mismatch t v
    | t => scalar o t v

/-- The declared members in their declared order; missing ones are null, others are ignored. -/
def fields (o : Options) (fs : List Field) (members : List (String × Json)) :
    Except Error (List Value) :=
  match fs with
  | [] => .ok []
  | ⟨name, t, _⟩ :: fs =>
    match Json.member? members name with
    | none => (fields o fs members).map (.null :: ·)
    | some v => do
      let x ← value o t v
      (fields o fs members).map (x :: ·)

end

/-- The position of the corrupt column. It counts only when it is declared as a string. -/
def corruptIndex? (s : Schema) (o : Options) : Option Nat := do
  let name ← o.corruptColumn
  let i ← s.indexOf? name
  let f ← s.fields[i]?
  if f.type.resolve = .string then some i else none

def corruptRows (s : Schema) (o : Options) (text : String) : List Row :=
  match corruptIndex? s o with
  | some i => [(Row.nulls s.size).put i (.string text)]
  | none => []

def isRowToken : Json → Bool
  | .obj _ => true
  | .null => true
  | _ => false

def elements (s : Schema) (o : Options) (items : List Json) : Except Error (List Row) :=
  (items.filterMap fun v => match v with
    | .obj members => some members
    | _ => none).mapM (fields o s.fields)

def record (s : Schema) (o : Options) (text : String) : Except Error (List Row) :=
  match Json.ofText? text with
  | none => .ok (corruptRows s o text)
  | some .null => .ok []
  | some (.obj members) => (fields o s.fields members).map ([·])
  | some (.arr items) =>
    if items.all isRowToken then elements s o items else .ok (corruptRows s o text)
  | some _ => .ok (corruptRows s o text)

end Decode

end TypedRecords
