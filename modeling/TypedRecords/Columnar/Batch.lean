import TypedRecords.Columnar.Cell
import TypedRecords.Row.Encode
/-!
# Record batches

Rows set out in columns. The rows are written as text, a line for each, and the cells of the columns are read
from this text, so that a batch holds what the text of the rows says.
-/

namespace TypedRecords

structure Batch where
  rows : Nat
  columns : List Column
  cells : List (List Value)
  deriving Repr

namespace Batch

def transpose (count : Nat) (rows : List Row) : List (List Value) :=
  (List.range count).map fun i => rows.map fun row => row.getD i .null

def empty (columns : List Column) : Batch := ⟨0, columns, transpose columns.length []⟩

/-- The values in front of a text, at most `count` of them, and what is left of it behind them and the
blanks that follow. -/
def readValues : Nat → List Char → Except Error (List Json × List Char)
  | 0, cs => .ok ([], Json.skipSpace cs)
  | count + 1, cs =>
    match Json.skipSpace cs with
    | [] => .ok ([], [])
    | cs =>
      match Json.readValue .all (2 * cs.length + 2) cs.length cs with
      | some (v, rest) => (readValues count rest).map fun (vs, rest) => (v :: vs, rest)
      | none => .error .columns

def flush (columns : List Column) (values : List Json) : Except Error (Option Batch) :=
  if values.isEmpty then .ok none
  else do
    let cells ← values.mapM (rowCells columns)
    return some ⟨values.length, columns, transpose columns.length cells⟩

/-- Reads a batch of at most `count` rows. The text has to hold these rows and no more. -/
def ofText (columns : List Column) (count : Nat) (text : String) : Except Error Batch := do
  if !storableAll columns then .error .columns
  let (values, rest) ← readValues count text.toList
  let read := text.utf8ByteSize - (String.ofList rest).utf8ByteSize
  if read ≠ text.utf8ByteSize then
    .error (.output s!"Arrow decoder stopped after {read} of {text.utf8ByteSize} bytes")
  match ← flush columns values with
  | some b => return b
  | none => return empty columns

def ofRows (s : Schema) (rows : List Row) : Except Error Batch := do
  let columns ← ColumnType.ofSchema s
  if rows.isEmpty then return empty columns
  if s.isEmpty then return ⟨rows.length, columns, []⟩
  let texts ← rows.mapM (Encode.row s)
  ofText columns rows.length (String.join (texts.map (· ++ "\n")))

end Batch

end TypedRecords
