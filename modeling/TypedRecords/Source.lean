import TypedRecords.Error
import TypedRecords.Text.Lines
/-!
# Sources of records

Files as far as the library looks at them, and the records of a file of lines.
-/

namespace TypedRecords

inductive FileState where
  | missing
  /-- A name below something that is no directory. -/
  | notDirectory
  | directory
  | bytes (content : ByteArray)

abbrev Files := String → FileState

namespace Files

def present (files : Files) (path : String) : Bool :=
  match files path with
  | .missing => false
  | .notDirectory => false
  | _ => true

def readText (files : Files) (path : String) : Except FileFault String :=
  match files path with
  | .missing => .error .missing
  | .notDirectory => .error .notDirectory
  | .directory => .error .isDirectory
  | .bytes content =>
    match String.fromUTF8? content with
    | some text => .ok text
    | none => .error .notUtf8

def require (files : Files) (path : String) : Except Error String :=
  if files.present path then
    match files.readText path with
    | .ok text => .ok text
    | .error fault => .error (.io fault)
  else .error (.fileNotFound path)

end Files

/-- Where records come from. Every scan gives the same records. -/
inductive Source where
  | memory (records : List String)
  | lines (path : String)
  deriving DecidableEq, Repr

namespace Source

def recordsOfText (text : String) : List String :=
  (Text.lines text).filter fun line => !(Text.trim line.toList).isEmpty

def scan (files : Files) : Source → Except Error (List String)
  | .memory records => .ok records
  | .lines path => (files.require path).map recordsOfText

end Source

end TypedRecords
