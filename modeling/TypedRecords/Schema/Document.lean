import TypedRecords.Json.Document
import TypedRecords.Json.Reader
import TypedRecords.Json.Writer
import TypedRecords.Schema.Basic
/-!
# Schema documents

The JSON form of types, fields and schemas. A type is an object whose entry `type` names it, at any
position among its other entries; or an array of that name and the other entries.
-/

namespace TypedRecords

namespace DataType

/-- The names of the types, in the order in which an index counts them. -/
def tags : List String :=
  ["null", "string", "boolean", "byte", "short", "integer", "long", "float", "double", "decimal",
    "date", "timestamp", "binary", "array", "struct", "map", "user"]

def plain? (tag : String) : Option DataType :=
  match tag with
  | "null" => some .null
  | "string" => some .string
  | "boolean" => some .boolean
  | "byte" => some .byte
  | "short" => some .short
  | "integer" => some .integer
  | "long" => some .long
  | "float" => some .float
  | "double" => some .double
  | "date" => some .date
  | "timestamp" => some .timestamp
  | "binary" => some .binary
  | _ => none

/-- A name, or within another type also its index. -/
def tagOf? (nested : Bool) (v : Json) : Option String :=
  match v with
  | .str tag => some tag
  | .num _ => if nested then (Json.natUpTo? tags.length v).bind (tags[·]?) else none
  | _ => none

def splitTag? (nested : Bool) : Json → Option (String × Json)
  | .obj members =>
    match members.filter fun m => m.1 == "type" with
    | [(_, v)] => (tagOf? nested v).map (·, .obj (members.filter fun m => m.1 != "type"))
    | _ => none
  | .arr (v :: rest) => (tagOf? nested v).map (·, .arr rest)
  | _ => none

def fieldEntries : List String := ["name", "data_type", "nullable"]

def isBare : Json → Bool
  | .obj _ => true
  | .arr items => items.isEmpty
  | _ => false

mutual

def ofDocument? (fuel : Nat) (nested : Bool) (doc : Json) : Option DataType :=
  match fuel with
  | 0 => none
  | fuel + 1 => do
    let (tag, content) ← splitTag? nested doc
    match tag with
    | "decimal" =>
      let entries ← content.entries? ["precision", "scale"]
      let precision ← Json.entry? entries "precision" (Json.natUpTo? 255)
      let scale ← Json.entry? entries "scale" (Json.natUpTo? 255)
      return .decimal precision scale
    | "array" =>
      let entries ← content.entries? ["element", "contains_null"]
      let element ← Json.entry? entries "element" (ofDocument? fuel true)
      let containsNull ← Json.entry? entries "contains_null" Json.bool?
      return .array element containsNull
    | "map" =>
      let entries ← content.entries? ["value", "value_contains_null"]
      let value ← Json.entry? entries "value" (ofDocument? fuel true)
      let containsNull ← Json.entry? entries "value_contains_null" Json.bool?
      return .map value containsNull
    | "struct" =>
      let entries ← content.entries? ["fields"]
      let fields ← Json.entry? entries "fields" (fieldsOfDocument? fuel true)
      return .struct fields
    | "user" =>
      let entries ← content.entries? ["name", "sql_type"]
      let name ← Json.entry? entries "name" Json.string?
      let storage ← Json.entry? entries "sql_type" (ofDocument? fuel true)
      return .alias name storage
    | _ => if isBare content then plain? tag else none

def fieldOfDocument? (fuel : Nat) (nested : Bool) (doc : Json) : Option Field :=
  match fuel with
  | 0 => none
  | fuel + 1 => do
    let entries ← doc.entries? fieldEntries
    let name ← Json.entry? entries "name" Json.string?
    let type ← Json.entry? entries "data_type" (ofDocument? fuel nested)
    let nullable ← Json.entryOr entries "nullable" true Json.bool?
    return ⟨name, type, nullable⟩

def fieldsOfDocument? (fuel : Nat) (nested : Bool) (doc : Json) : Option (List Field) :=
  match fuel with
  | 0 => none
  | fuel + 1 =>
    match doc with
    | .arr items => items.mapM (fieldOfDocument? fuel nested)
    | _ => none

end

def tagged (tag : String) (entries : List (String × Json)) : Json :=
  .obj (("type", .str tag) :: entries)

def natural (n : Nat) : Json := .num (String.ofList (Text.digitsOf n))

mutual

def toDocument : DataType → Json
  | .null => tagged "null" []
  | .string => tagged "string" []
  | .boolean => tagged "boolean" []
  | .byte => tagged "byte" []
  | .short => tagged "short" []
  | .integer => tagged "integer" []
  | .long => tagged "long" []
  | .float => tagged "float" []
  | .double => tagged "double" []
  | .decimal p s => tagged "decimal" [("precision", natural p), ("scale", natural s)]
  | .date => tagged "date" []
  | .timestamp => tagged "timestamp" []
  | .binary => tagged "binary" []
  | .array e n => tagged "array" [("element", e.toDocument), ("contains_null", .bool n)]
  | .struct fs => tagged "struct" [("fields", .arr (fieldsToDocument fs))]
  | .map v n => tagged "map" [("value", v.toDocument), ("value_contains_null", .bool n)]
  | .alias name t => tagged "user" [("name", .str name), ("sql_type", t.toDocument)]

def fieldsToDocument : List Field → List Json
  | [] => []
  | ⟨name, t, nullable⟩ :: fs =>
    .obj [("name", .str name), ("data_type", t.toDocument), ("nullable", .bool nullable)] ::
      fieldsToDocument fs

end

end DataType

namespace Schema

def toDocument (s : Schema) : Json := .obj [("fields", .arr (DataType.fieldsToDocument s.fields))]

/-- Types are read whole, whatever they ignore. -/
def outline : Json.Outline :=
  .entries [("fields", .items (.entries (DataType.fieldEntries.map (·, .all))))]

/-- A document without fields is the empty schema. -/
def fieldsOfText? (text : String) : Option (List Field) := do
  let doc ← Json.document? outline text
  let entries ← doc.entries? ["fields"]
  Json.entryOr entries "fields" [] (DataType.fieldsOfDocument? (doc.depth + 1) false)

def ofText (text : String) : Except Error Schema :=
  match fieldsOfText? text with
  | some fields => ofFields fields true
  | none => .error .jsonDocument

def compactText (s : Schema) : String := s.toDocument.compact

def indentedText (s : Schema) : String := s.toDocument.indented

end Schema

end TypedRecords
