import TypedRecords.Decimal.Literal
import TypedRecords.Floating.Stepwise
import TypedRecords.Json.Document
import TypedRecords.Json.Reader
import TypedRecords.Options.Basic
import TypedRecords.Source
import TypedRecords.Yaml.Reader
import TypedRecords.Yaml.Typed
/-!
# Option documents

Options from JSON and YAML documents and from files. Entries that are missing have their defaults,
unknown ones are ignored.
-/

namespace TypedRecords.Options

-- Powers are the core library's, whatever else is in scope.
attribute [local instance (5000)] instPowNat

structure EntryReader (α : Type) where
  ratio? : α → Option Double
  seed? : α → Option Nat
  column? : α → Option (Option String)
  flag? : α → Option Bool

def names : List String :=
  ["sampling_ratio", "sampling_seed", "corrupt_record_column", "number_format_strict",
    "empty_string_as_null", "prefers_decimal", "infer_timestamps", "case_sensitive"]

def ofEntries? {α : Type} (r : EntryReader α) (entries : List (String × α)) : Option Options := do
  let entryOr {β : Type} (name : String) (default : β) (read : α → Option β) : Option β :=
    match entries.lookup name with
    | none => some default
    | some v => read v
  let d : Options := {}
  return {
    samplingRatio := ← entryOr "sampling_ratio" d.samplingRatio r.ratio?
    samplingSeed := ← entryOr "sampling_seed" d.samplingSeed fun v =>
      (r.seed? v).map fun n => UInt64.ofNat n
    corruptColumn := ← entryOr "corrupt_record_column" d.corruptColumn r.column?
    strictNumbers := ← entryOr "number_format_strict" d.strictNumbers r.flag?
    emptyStringAsNull := ← entryOr "empty_string_as_null" d.emptyStringAsNull r.flag?
    prefersDecimal := ← entryOr "prefers_decimal" d.prefersDecimal r.flag?
    inferTimestamps := ← entryOr "infer_timestamps" d.inferTimestamps r.flag?
    caseSensitive := ← entryOr "case_sensitive" d.caseSensitive r.flag?
  }

def ratioOfLiteral? (literal : String) : Option Double := do
  let (mantissa, exponent) := (literal.toList.takeWhile fun c => !Literal.isExponentMark c,
    (literal.toList.dropWhile fun c => !Literal.isExponentMark c).drop 1)
  let exponent ← if exponent.isEmpty then some 0 else Text.signedOfDigits? exponent
  let (negative, digits) := Literal.splitSign mantissa
  let (whole, fraction) := Literal.splitPoint digits
  Floating.stepwise? negative whole fraction exponent

def jsonEntries : EntryReader Json where
  ratio?
    | .num literal => ratioOfLiteral? literal
    | _ => none
  seed? := Json.natUpTo? (2 ^ (64 : Nat) - 1)
  column?
    | .null => some none
    | .str s => some (some s)
    | _ => none
  flag? := Json.bool?

/-- A collection is no value of any option. -/
def yamlEntries : EntryReader (Option Yaml.Scalar) where
  ratio? v := v.bind Yaml.Scalar.real?
  seed? v := v.bind Yaml.Scalar.natural?
  column? v := v.bind Yaml.Scalar.optionalText?
  flag? v := v.bind Yaml.Scalar.bool?

def ofJson (text : String) : Except Error Options :=
  let outline := .entries (names.map (·, .all))
  match ((Json.document? outline text).bind (Json.entries? names)).bind (ofEntries? jsonEntries) with
  | some o => o.validated
  | none => .error .jsonDocument

def ofYaml (text : String) : Except Error Options :=
  match ((Yaml.read? text).bind (·.entries? names)).bind (ofEntries? yamlEntries) with
  | some o => o.validated
  | none => .error .yamlDocument

/-- What follows the last point of a file's name, unless the name has no other point than its first
character. -/
def extension? (path : String) : Option String :=
  let name := (path.toList.reverse.takeWhile (· != '/')).reverse
  let reversed := name.reverse
  let ending := (reversed.takeWhile (· != '.')).reverse
  let stem := (reversed.dropWhile (· != '.')).drop 1
  if stem.isEmpty || name == ['.', '.'] then none else some (String.ofList ending)

def ofFile (files : Files) (path : String) : Except Error Options := do
  let text ← files.require path
  match extension? path with
  | some "json" => ofJson text
  | some "yaml" => ofYaml text
  | some "yml" => ofYaml text
  | other =>
    .error (.configuration ("Unsupported options file extension: " ++ other.getD "<none>"))

end TypedRecords.Options
