import TypedRecords.Calendar.Reader
import TypedRecords.Columnar.ColumnType
import TypedRecords.Row.Decode
/-!
# Cells

The cell that a JSON value is in a column. What a column takes depends on its own type only.
-/

namespace TypedRecords.Batch

def storableDecimal (precision scale : Nat) : Bool :=
  0 < precision && precision ≤ maxPrecision && scale ≤ precision

mutual

def storable : ColumnType → Bool
  | .decimal128 p s => storableDecimal p s
  | .list ⟨_, c, _⟩ => storable c
  | .map ⟨_, c, _⟩ _ => storable c
  | .struct columns => storableAll columns
  | _ => true

def storableAll : List Column → Bool
  | [] => true
  | ⟨_, c, _⟩ :: columns => storable c && storableAll columns

end

/-- The digits of a number in a column with `scale` places. Zeros at its front do not count, further places
are cut off and missing ones are zeros. A column without places keeps all of the number's places, as
if the point were not there. -/
def columnDigits (scale : Nat) (whole fraction : List Char) : List Char :=
  let places := if scale = 0 then fraction else fraction.take scale
  whole.dropWhile (· == '0') ++ places ++ List.replicate (scale - places.length) '0'

/-- The decimal of a column, which has to hold all of its digits, zeros behind the point included. -/
def decimalCell? (precision scale : Nat) (literal : String) : Option Decimal :=
  let (negative, number) := Literal.splitSign literal.toList
  let (whole, fraction) := Literal.splitPoint number
  let digits := columnDigits scale whole fraction
  if digits.length ≤ precision then
    (Text.natOfDigits? ('0' :: digits)).bind fun n =>
      Decimal.ofUnscaled? (if negative then -n else n) precision scale
  else none

def wordCell {f : Format} (s : String) : Except Error (Floating f) :=
  if s = "NaN" then .ok Floating.nan
  else if s = "Infinity" then .ok (Floating.infinity false)
  else if s = "-Infinity" then .ok (Floating.infinity true)
  else .error .columns

def realCell {f : Format} : Json → Except Error (Floating f)
  | .num literal => .ok (Decode.real literal)
  | .str s => wordCell s
  | _ => .error .columns

def wholeCell (bits : Nat) (literal : String) : Except Error Int :=
  match (Literal.long? literal).bind (fitting? bits) with
  | some z => .ok z
  | none => .error .columns

def scalarCell (c : ColumnType) (v : Json) : Except Error Value :=
  match c, v with
  | .utf8, .str s => .ok (.string s)
  | .boolean, .bool b => .ok (.boolean b)
  | .int8, .num literal => (wholeCell 8 literal).map fun z => .byte (Int8.ofInt z)
  | .int16, .num literal => (wholeCell 16 literal).map fun z => .short (Int16.ofInt z)
  | .int32, .num literal => (wholeCell 32 literal).map fun z => .integer (Int32.ofInt z)
  | .int64, .num literal => (wholeCell 64 literal).map fun z => .long (Int64.ofInt z)
  | .float32, v => (realCell v).map .float
  | .float64, v => (realCell v).map .double
  | .decimal128 p s, .num literal =>
    match decimalCell? p s literal with
    | some d => .ok (.decimal d)
    | none => .error .columns
  | .date32, .str s =>
    match Calendar.strictDate? s.toList with
    | some date => .ok (.date (Int32.ofInt date.dayNumber))
    | none => .error .columns
  | .timestampMicros _, .str s =>
    match Calendar.strictTimestamp? s.toList with
    | some micros => .ok (.timestamp (Int64.ofInt micros))
    | none => .error .columns
  | _, _ => .error .columns

def isNested : ColumnType → Bool
  | .list _ => true
  | .map _ _ => true
  | .struct _ => true
  | _ => false

def isNullColumn : ColumnType → Bool
  | .null => true
  | _ => false

mutual

/-- The cell for a token. Only cells that hold others look at whether they may be null; for the rest
the struct around them does. -/
def cell (c : ColumnType) (nullable : Bool) (v : Json) : Except Error Value :=
  match c, v with
  | c, .null => if isNested c && !nullable then .error .columns else .ok .null
  | .list ⟨_, item, n⟩, .arr items => (items.mapM (cell item n)).map .array
  | .map ⟨_, .struct [⟨_, .utf8, _⟩, ⟨_, w, n⟩], _⟩ _, .obj members =>
    (members.mapM fun m => (cell w n m.2).map (m.1, ·)).map .map
  | .struct columns, .obj members => (fieldCells columns nullable members).map .struct
  | c, v => scalarCell c v

/-- The cells of a struct; a missing member is null. Inside a struct that may be null the cells of its
members may be null as well, but where it is not null they keep to their own declaration. -/
def fieldCells (columns : List Column) (nullable : Bool) (members : List (String × Json)) :
    Except Error (List Value) :=
  match columns with
  | [] => .ok []
  | ⟨name, c, own⟩ :: columns => do
    let x ← cell c (own || nullable) ((Json.member? members name).getD .null)
    if x.isNull && !own && !isNullColumn c then .error .columns
    else (fieldCells columns nullable members).map (x :: ·)

end

def rowCells (columns : List Column) (v : Json) : Except Error Row :=
  match v with
  | .obj members => fieldCells columns false members
  | _ => .error .columns

end TypedRecords.Batch
