import TypedRecords.Floating.Layout
import TypedRecords.Text.Base64
/-!
# Errors

The causes of failure and their messages. An error is at record level when the fault lies in one
record or row, so that the others can still be processed.
-/

namespace TypedRecords

inductive FileFault where
  | missing
  | notDirectory
  | isDirectory
  | notUtf8
  deriving DecidableEq, Repr

def FileFault.message : FileFault → String
  | .missing => "No such file or directory (os error 2)"
  | .notDirectory => "Not a directory (os error 20)"
  | .isDirectory => "Is a directory (os error 21)"
  | .notUtf8 => "stream did not contain valid UTF-8"

inductive Error where
  | configuration (text : String)
  | invalidOption (field text : String)
  | samplingRatio (ratio : Double)
  | yamlDocument
  | jsonDocument
  | duplicateField (name : String)
  /-- A token of a kind that the target type cannot be read from. -/
  | undecodable (token target : String)
  /-- A value of a kind that does not belong to the declared type. -/
  | unencodable (value declared : String)
  | numericLiteral (literal target : String)
  | temporalLiteral (literal target : String)
  | decimalOverflow (literal : String) (precision scale : Nat)
  | base64 (fault : Text.Base64.Fault)
  /-- Encoded rows that do not fit their columns. -/
  | columns
  | output (text : String)
  | io (fault : FileFault)
  | fileNotFound (path : String)
  | inContext (context : String) (cause : Error)
  | other (text : String)
  | recordsFailed (failed total : Nat)
  /-- A step of a computation in words left its word unchecked. The run stops there. -/
  | panic
  deriving DecidableEq, Repr

namespace Error

def message : Error → String
  | .configuration text => "Configuration error: " ++ text
  | .invalidOption field text => s!"Invalid config value for '{field}': {text}"
  | .samplingRatio ratio => "Sampling ratio must be greater than 0, got " ++ ratio.messageText
  | .yamlDocument => "Failed to parse YAML: malformed document"
  | .jsonDocument => "Failed to parse JSON: malformed document"
  | .duplicateField name => s!"Duplicate field '{name}' in schema"
  | .undecodable token target => s!"Failed to decode {token} token as {target}"
  | .unencodable value declared => s!"Failed to encode {value} value as {declared}"
  | .numericLiteral literal target => s!"Cannot parse '{literal}' as {target}"
  | .temporalLiteral literal target => s!"Cannot parse '{literal}' as {target}"
  | .decimalOverflow literal precision scale =>
    s!"Value '{literal}' does not fit decimal({precision},{scale})"
  | .base64 fault => "Invalid base64 payload: " ++ fault.message
  | .columns => "Arrow error: rows do not fit their columns"
  | .output text => "Output error: " ++ text
  | .io fault => "IO error: " ++ fault.message
  | .fileNotFound path => "File not found: " ++ path
  | .inContext context cause => context ++ ": " ++ cause.message
  | .other text => text
  | .recordsFailed failed total => s!"{failed} of {total} records failed to normalize"
  | .panic => "attempt to subtract with overflow"

def isRecordLevel : Error → Bool
  | .undecodable _ _ => true
  | .unencodable _ _ => true
  | .numericLiteral _ _ => true
  | .temporalLiteral _ _ => true
  | .decimalOverflow _ _ _ => true
  | .base64 _ => true
  | _ => false

end Error

end TypedRecords
