import TypedRecords.DataType.Basic
import TypedRecords.Decimal.Literal
/-!
# The more general of two types

`merge a b` is the type for a position where values of both types were seen. `null` gives way to every
type, numbers widen, structs unite their fields, and `string` takes whatever does not fit together.
-/

namespace TypedRecords.DataType

/-- The decimal type with the larger scale and the larger number of integer digits, as far as there
is one. -/
def mergeDecimals (p s p' s' : Nat) : DataType :=
  let scale := max s s'
  let precision := max (p - s) (p' - s') + scale
  if precision ≤ maxPrecision then .decimal precision scale else .double

/-- Types that are neither equal, nor containers, nor aliases. -/
def mergeScalars (a b : DataType) : DataType :=
  match a.integralRank?, b.integralRank? with
  | some i, some j => if j ≤ i then a else b
  | _, _ =>
    if a.isPrimitiveNumeric && b.isPrimitiveNumeric then .double
    else match a, b with
      | .decimal p s, .decimal p' s' => mergeDecimals p s p' s'
      | .decimal p s, t =>
        if t.isFloating then .double
        else match t.integralDigits? with
          | some digits => mergeDecimals p s digits 0
          | none => .string
      | t, .decimal p s =>
        if t.isFloating then .double
        else match t.integralDigits? with
          | some digits => mergeDecimals p s digits 0
          | none => .string
      | .date, .timestamp => .timestamp
      | .timestamp, .date => .timestamp
      | _, _ => .string

/-- Enters a field into a list sorted by name; a field of that name has its type combined with the
new one. Entered fields are nullable. -/
def enterField (combine : DataType → DataType → DataType) (name : String) (t : DataType) :
    List Field → List Field
  | [] => [⟨name, t, true⟩]
  | g :: gs =>
    if g.name = name then ⟨name, combine g.type t, true⟩ :: gs
    else if name < g.name then ⟨name, t, true⟩ :: g :: gs
    else g :: enterField combine name t gs

def enterFields (combine : DataType → DataType → DataType) (fs sorted : List Field) :
    List Field :=
  fs.foldl (fun gs f => enterField combine f.name f.type gs) sorted

/-- The union of two field lists, sorted by name. In the left list the last of two fields with one
name counts. -/
def mergeFields (merge : DataType → DataType → DataType) (left right : List Field) : List Field :=
  enterFields merge right (enterFields (fun _ t => t) left [])

/-- One level of merging; `combine` merges the parts, each pair of which is smaller in total size. -/
def mergeStep (combine : DataType → DataType → DataType) (a b : DataType) : DataType :=
  if a = b then a
  else match a, b with
    | .null, t => t
    | t, .null => t
    | .alias _ s, t => combine s t
    | t, .alias _ s => combine s t
    | .struct fs, .struct gs => .struct (mergeFields combine fs gs)
    | .array e n, .array e' n' => .array (combine e e') (n || n')
    | .map v n, .map v' n' => .map (combine v v') (n || n')
    | a, b => mergeScalars a b

/-- The total size of the pair bounds the levels. -/
def mergeWithin : Nat → DataType → DataType → DataType
  | 0, _, _ => .string
  | fuel + 1, a, b => mergeStep (mergeWithin fuel) a b

def merge (a b : DataType) : DataType := mergeWithin (a.size + b.size) a b

def mergeAll (ts : List DataType) : DataType := ts.foldl merge .null

end TypedRecords.DataType
