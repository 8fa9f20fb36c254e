import TypedRecords.Command.Arguments
import TypedRecords.Inference
import TypedRecords.Options.Document
import TypedRecords.Row.Encode
import TypedRecords.Row.Stream
import TypedRecords.Schema.Document
import TypedRecords.Source
/-!
# Running a command

`infer` prints the schema of a file of records. `normalize` decodes the records under a schema and
prints the rows; records that fail are skipped and reported at the end.
-/

namespace TypedRecords.Command

structure Outcome where
  lines : List String
  failure : Option Error
  deriving Repr

namespace Outcome

def ofExcept : Except Error (List String) → Outcome
  | .ok lines => ⟨lines, none⟩
  | .error e => ⟨[], some e⟩

def output (r : Outcome) : String := String.join (r.lines.map (· ++ "\n"))

end Outcome

def loadOptions (files : Files) : Option String → Except Error Options
  | none => .ok {}
  | some path => Options.ofFile files path

def loadSchema (files : Files) (path : String) : Except Error Schema :=
  match files.readText path with
  | .ok text => Schema.ofText text
  | .error fault => .error (.inContext ("Failed to read schema file " ++ path) (.io fault))

def inferLines (files : Files) (o : Options) (input : String) (ratio : Option Double)
    (pretty : Bool) : Except Error (List String) := do
  let records ← Source.scan files (.lines input)
  let schema ← inferSchema { o with samplingRatio := ratio.getD o.samplingRatio } records
  return [if pretty then schema.indentedText else schema.compactText]

/-- The texts of the rows in order and the number of failures at record level. Any other failure ends
the run. -/
def collect : List (Except Error String) → List String × Nat × Option Error
  | [] => ([], 0, none)
  | .ok line :: rest =>
    let (lines, failed, stop) := collect rest
    (line :: lines, failed, stop)
  | .error e :: rest =>
    if e.isRecordLevel then
      let (lines, failed, stop) := collect rest
      (lines, failed + 1, stop)
    else ([], 0, some e)

def normalizeRecords (s : Schema) (o : Options) (records : List String) : Outcome :=
  let texts := (decodeRecords s o records).map fun item => item.bind (Encode.row s)
  match collect texts with
  | (lines, _, some e) => ⟨lines, some e⟩
  | (lines, 0, none) => ⟨lines, none⟩
  | (lines, failed, none) => ⟨lines, some (.recordsFailed failed records.length)⟩

def schemaFor (files : Files) (o : Options) (input : String) :
    Option String → Except Error Schema
  | some path => loadSchema files path
  | none => (Source.scan files (.lines input)).bind (inferSchema o)

def normalize (files : Files) (o : Options) (input : String) (schema : Option String) : Outcome :=
  match (do
    let s ← schemaFor files o input schema
    let records ← Source.scan files (.lines input)
    return (s, records)) with
  | .ok (s, records) => normalizeRecords s o records
  | .error e => ⟨[], some e⟩

def run (files : Files) (invocation : Invocation) : Outcome :=
  match loadOptions files invocation.options with
  | .error e => ⟨[], some e⟩
  | .ok o =>
    match invocation.task with
    | .infer input ratio pretty => .ofExcept (inferLines files o input ratio pretty)
    | .normalize input schema => normalize files o input schema

end TypedRecords.Command
