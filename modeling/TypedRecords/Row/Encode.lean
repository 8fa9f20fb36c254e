import TypedRecords.Calendar.Printer
import TypedRecords.Floating.Layout
import TypedRecords.Json.Writer
import TypedRecords.Row.Value
import TypedRecords.Schema.Basic
/-!
# Encoding rows

A value of a declared type is written as a JSON value, a row as a compact JSON object of its fields
that are not null.
-/

namespace TypedRecords.Encode

def mismatch {α : Type} (t : DataType) (v : Value) : Except Error α :=
  .error (.unencodable v.kind t.text)

def wrongSize (fs : List Field) (row : List Value) : Except Error Json :=
  .error (.unencodable s!"row of {row.length} values" (DataType.struct fs).text)

def integer (z : Int) : Json := .num (String.ofList (Text.intDigits z))

def real {f : Format} (l : Layout) (x : Floating f) : Json :=
  if x.isFinite then .num (String.ofList (x.finiteText l))
  else if x.isNaN then .str "NaN"
  else .str (if x.isNegative then "-Infinity" else "Infinity")

def bytesText (bytes : List UInt8) : String :=
  String.ofList ((Text.Base64.encode bytes).map fun b => Char.ofNat b.toNat)

/-- The text of a date; it fails outside the years that can be written. -/
def date (days : Int) : Except Error String :=
  match Calendar.dateText? days with
  | some s => .ok s
  | none => .error (.unencodable ("date " ++ String.ofList (Text.intDigits days)) "date")

def timestamp (micros : Int) : Except Error String :=
  match Calendar.timestampText? micros with
  | some s => .ok s
  | none =>
    .error (.unencodable ("timestamp " ++ String.ofList (Text.intDigits micros)) "timestamp")

def scalar (t : DataType) (v : Value) : Except Error Json :=
  match t, v with
  | .string, .string s => .ok (.str s)
  | .boolean, .boolean b => .ok (.bool b)
  | .byte, .byte v => .ok (integer v.toInt)
  | .short, .short v => .ok (integer v.toInt)
  | .integer, .integer v => .ok (integer v.toInt)
  | .long, .long v => .ok (integer v.toInt)
  | .float, .float x => .ok (real .recordSingle x)
  | .double, .double x => .ok (real .recordDouble x)
  | .decimal _ _, .decimal d => .ok (.num d.text)
  | .date, .date days => (date days.toInt).map .str
  | .timestamp, .timestamp micros => (timestamp micros.toInt).map .str
  | .binary, .binary bytes => .ok (.str (bytesText bytes))
  | t, v => mismatch t v

mutual

def value (t : DataType) (v : Value) : Except Error Json :=
  if v.isNull then .ok .null
  else match t with
    | .alias _ s => value s v
    | .array e _ =>
      match v with
      | .array items => (items.mapM (value e)).map .arr
      | v => mismatch t v
    | .struct fs =>
      match v with
      | .struct row => if row.length = fs.length then (fields fs row).map .obj else wrongSize fs row
      | v => mismatch t v
    | .map w _ =>
      match v with
      | .map entries => (entries.mapM fun e => (value w e.2).map (e.1, ·)).map .obj
      | v => mismatch t v
    | t => scalar t v

def fields (fs : List Field) (row : List Value) : Except Error (List (String × Json)) :=
  match fs, row with
  | ⟨name, t, _⟩ :: fs, v :: row =>
    if v.isNull then fields fs row
    else do
      let token ← value t v
      (fields fs row).map ((name, token) :: ·)
  | _, _ => .ok []

end

def object (s : Schema) (row : Row) : Except Error Json := value s.toType (.struct row)

def row (s : Schema) (row : Row) : Except Error String := (object s row).map Json.compact

def text (t : DataType) (v : Value) : Except Error String := (value t v).map Json.compact

end TypedRecords.Encode
