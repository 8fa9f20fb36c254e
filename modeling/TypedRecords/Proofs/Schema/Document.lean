import TypedRecords.Proofs.DataType.Plain
import TypedRecords.Proofs.Json.ReadBack
import TypedRecords.Proofs.Schema.Distinct
import TypedRecords.Schema.Document
/-!
# Schema documents read back

A type has a document, and the document is read as that type again. The text of a schema is read as the schema as
long as its document nests as deep as the reader of texts allows; each struct takes three levels of it.
-/

namespace TypedRecords

namespace Json

theorem entries_self {entries : List (String × Json)} {names : List String} (h : entries.map Prod.fst = names)
    (hn : names.Nodup) : (Json.obj entries).entries? names = some entries := by
  have hall : entries.filter (fun m => names.contains m.1) = entries := by
    rw [List.filter_eq_self]
    intro m hm
    rw [List.contains_iff_mem, ← h]
    exact List.mem_map_of_mem hm
  simp only [entries?, hall, h, if_pos hn]

theorem entries_single (a : String) (v : Json) : (Json.obj [(a, v)]).entries? [a] = some [(a, v)] :=
  entries_self rfl (by simp)

theorem entries_pair {a b : String} (hab : a ≠ b) (v w : Json) :
    (Json.obj [(a, v), (b, w)]).entries? [a, b] = some [(a, v), (b, w)] :=
  entries_self rfl (by simp [hab])

variable {α : Type} {a b : String} {v : Json} {entries : List (String × Json)}

theorem entry_head (read : Json → Option α) : entry? ((a, v) :: entries) a read = read v := by
  unfold entry? member?
  rw [List.lookup_cons_self, Option.bind_some]

theorem entry_next (h : a ≠ b) (read : Json → Option α) :
    entry? ((b, v) :: entries) a read = entry? entries a read := by
  have hne : (a == b) = false := by simpa using h
  unfold entry? member?
  rw [List.lookup_cons, hne]

end Json

namespace DataType

variable {fuel : Nat} {nested : Bool} {t : DataType} {fs : List Field}

section Entries

theorem split_tagged (nested : Bool) (tag : String) (entries : List (String × Json))
    (h : ∀ m ∈ entries, m.1 ≠ "type") : splitTag? nested (tagged tag entries) = some (tag, .obj entries) := by
  have htag : entries.filter (fun m => m.1 == "type") = [] := by
    rw [List.filter_eq_nil_iff]
    intro m hm
    simpa using h m hm
  have hrest : entries.filter (fun m => m.1 != "type") = entries := by
    rw [List.filter_eq_self]
    intro m hm
    simpa using h m hm
  simp [splitTag?, tagged, htag, hrest, tagOf?]

theorem natural_back {bound n : Nat} (h : n ≤ bound) : Json.natUpTo? bound (natural n) = some n := by
  simp [Json.natUpTo?, natural, h]

theorem natural_read (n : Nat) : Json.Read (natural n) := by
  have hrun : Json.IsRun (Text.digitsOf n) := ⟨Text.digits_of_ne_nil n, Text.digits_of_all n⟩
  have hnumeral : Json.Read (.num (String.ofList _)) :=
    .num ⟨false, Text.digitsOf n, [], none, hrun, Text.digits_of_lead, rfl, by simp⟩
  simpa [natural, Json.Numeral.chars, Json.Numeral.signChars, Json.Numeral.fractionChars,
    Json.Numeral.exponentChars] using hnumeral

theorem tagged_depth (tag : String) (entries : List (String × Json)) :
    (tagged tag entries).depth = Json.membersDepth entries + 1 := by
  simp [tagged, Json.depth, Json.membersDepth]

end Entries

section Parts

theorem plain_back {tag : String} (htag : plain? tag = some t) :
    ofDocument? (fuel + 1) nested (tagged tag []) = some t := by
  have hsplit := split_tagged nested tag [] (by simp)
  rw [ofDocument?, hsplit, Option.bind_eq_bind, Option.bind_some]
  dsimp only
  -- A type with entries is not plain, so under its tag neither side is there.
  split
  all_goals exact htag

theorem decimal_back {p s : Nat} (hp : p ≤ 255) (hs : s ≤ 255) :
    ofDocument? (fuel + 1) nested (toDocument (.decimal p s)) = some (.decimal p s) := by
  have hsplit := split_tagged nested "decimal" [("precision", natural p), ("scale", natural s)] (by simp)
  have hne : "scale" ≠ "precision" := by decide
  simp only [toDocument, ofDocument?, hsplit, Json.entries_pair hne.symm, Option.bind_eq_bind, Option.bind_some,
    Json.entry_head, Json.entry_next hne, natural_back hp, natural_back hs]
  rfl

theorem array_back {n : Bool} (h : ofDocument? fuel true t.toDocument = some t) :
    ofDocument? (fuel + 1) nested (toDocument (.array t n)) = some (.array t n) := by
  have hsplit := split_tagged nested "array" [("element", t.toDocument), ("contains_null", .bool n)] (by simp)
  have hne : "contains_null" ≠ "element" := by decide
  simp only [toDocument, ofDocument?, hsplit, Json.entries_pair hne.symm, Option.bind_eq_bind, Option.bind_some,
    Json.entry_head, Json.entry_next hne, h, Json.bool?]
  rfl

theorem map_back {n : Bool} (h : ofDocument? fuel true t.toDocument = some t) :
    ofDocument? (fuel + 1) nested (toDocument (.map t n)) = some (.map t n) := by
  have hsplit := split_tagged nested "map" [("value", t.toDocument), ("value_contains_null", .bool n)] (by simp)
  have hne : "value_contains_null" ≠ "value" := by decide
  simp only [toDocument, ofDocument?, hsplit, Json.entries_pair hne.symm, Option.bind_eq_bind, Option.bind_some,
    Json.entry_head, Json.entry_next hne, h, Json.bool?]
  rfl

theorem alias_back {name : String} (h : ofDocument? fuel true t.toDocument = some t) :
    ofDocument? (fuel + 1) nested (toDocument (.alias name t)) = some (.alias name t) := by
  have hsplit := split_tagged nested "user" [("name", .str name), ("sql_type", t.toDocument)] (by simp)
  have hne : "sql_type" ≠ "name" := by decide
  simp only [toDocument, ofDocument?, hsplit, Json.entries_pair hne.symm, Option.bind_eq_bind, Option.bind_some,
    Json.entry_head, Json.entry_next hne, h, Json.string?]
  rfl

theorem struct_back (h : fieldsOfDocument? fuel true (.arr (fieldsToDocument fs)) = some fs) :
    ofDocument? (fuel + 1) nested (toDocument (.struct fs)) = some (.struct fs) := by
  have hsplit := split_tagged nested "struct" [("fields", .arr (fieldsToDocument fs))] (by simp)
  simp only [toDocument, ofDocument?, hsplit, Json.entries_single, Option.bind_eq_bind, Option.bind_some,
    Json.entry_head, h]
  rfl

theorem field_back {f : Field} (h : ofDocument? fuel nested f.type.toDocument = some f.type) :
    fieldOfDocument? (fuel + 1) nested
        (.obj [("name", .str f.name), ("data_type", f.type.toDocument), ("nullable", .bool f.nullable)]) = some f := by
  have hentries : (Json.obj [("name", .str f.name), ("data_type", f.type.toDocument),
      ("nullable", .bool f.nullable)]).entries? fieldEntries = _ := Json.entries_self rfl (by decide)
  have hname : "data_type" ≠ "name" := by decide
  have hnullable : Json.member? [("name", .str f.name), ("data_type", f.type.toDocument),
      ("nullable", .bool f.nullable)] "nullable" = some (.bool f.nullable) := rfl
  simp only [fieldOfDocument?, hentries, Option.bind_eq_bind, Option.bind_some, Json.entry_head,
    Json.entry_next hname, Json.entryOr, hnullable, h, Json.string?, Json.bool?]
  rfl

end Parts

def Bytes : DataType → Prop
  | .decimal p s => p ≤ 255 ∧ s ≤ 255
  | _ => True

mutual

/-- A type is read from its document, with a unit of fuel for each level of nesting. -/
theorem of_document : (t : DataType) → t.Every Bytes → ∀ {fuel : Nat} {nested : Bool}, t.toDocument.depth ≤ fuel →
    ofDocument? fuel nested t.toDocument = some t
  | .decimal p s, h, fuel, nested, hfuel => by
    rw [toDocument, tagged_depth] at hfuel
    obtain ⟨fuel, rfl⟩ : ∃ n, fuel = n + 1 := ⟨fuel - 1, by omega⟩
    exact decimal_back h.1 h.2
  | .array e n, h, fuel, nested, hfuel => by
    rw [toDocument, tagged_depth, Json.membersDepth] at hfuel
    obtain ⟨fuel, rfl⟩ : ∃ n, fuel = n + 1 := ⟨fuel - 1, by omega⟩
    exact array_back (of_document e h.2 (by omega))
  | .map w n, h, fuel, nested, hfuel => by
    rw [toDocument, tagged_depth, Json.membersDepth] at hfuel
    obtain ⟨fuel, rfl⟩ : ∃ n, fuel = n + 1 := ⟨fuel - 1, by omega⟩
    exact map_back (of_document w h.2 (by omega))
  | .alias name t, h, fuel, nested, hfuel => by
    rw [toDocument, tagged_depth, Json.membersDepth, Json.membersDepth, Json.membersDepth] at hfuel
    obtain ⟨fuel, rfl⟩ : ∃ n, fuel = n + 1 := ⟨fuel - 1, by omega⟩
    exact alias_back (of_document t h.2 (by omega))
  | .struct fs, h, fuel, nested, hfuel => by
    rw [toDocument, tagged_depth, Json.membersDepth, Json.depth] at hfuel
    obtain ⟨fuel, rfl⟩ : ∃ n, fuel = n + 2 := ⟨fuel - 2, by omega⟩
    apply struct_back
    rw [fieldsOfDocument?]
    exact of_field_documents fs h.2 (by omega)
  | .null, _, fuel, nested, hfuel | .string, _, fuel, nested, hfuel | .boolean, _, fuel, nested, hfuel
  | .byte, _, fuel, nested, hfuel | .short, _, fuel, nested, hfuel | .integer, _, fuel, nested, hfuel
  | .long, _, fuel, nested, hfuel | .float, _, fuel, nested, hfuel | .double, _, fuel, nested, hfuel
  | .date, _, fuel, nested, hfuel | .timestamp, _, fuel, nested, hfuel | .binary, _, fuel, nested, hfuel => by
    rw [toDocument, tagged_depth] at hfuel
    obtain ⟨fuel, rfl⟩ : ∃ n, fuel = n + 1 := ⟨fuel - 1, by omega⟩
    exact plain_back rfl

theorem of_field_documents : (fs : List Field) → EveryField Bytes fs → ∀ {fuel : Nat} {nested : Bool},
    Json.itemsDepth (fieldsToDocument fs) ≤ fuel → (fieldsToDocument fs).mapM (fieldOfDocument? fuel nested) = some fs
  | [], _, _, _, _ => rfl
  | ⟨name, t, nullable⟩ :: fs, h, fuel, nested, hfuel => by
    rw [fieldsToDocument, Json.itemsDepth, Nat.max_le, Json.depth] at hfuel
    have hrest : (fieldsToDocument fs).mapM (fieldOfDocument? fuel nested) = some fs := of_field_documents fs h.2 hfuel.2
    have hdepth : t.toDocument.depth + 1 ≤ fuel := by
      refine Nat.le_trans ?_ hfuel.1
      simp [Json.membersDepth]
    obtain ⟨fuel, rfl⟩ : ∃ n, fuel = n + 1 := ⟨fuel - 1, by omega⟩
    have ht : ofDocument? fuel nested t.toDocument = some t := of_document t h.1 (Nat.le_of_succ_le_succ hdepth)
    have hfield := field_back (f := ⟨name, t, nullable⟩) ht
    rw [fieldsToDocument, List.mapM_cons, hfield, hrest]
    rfl

end

mutual

theorem document_read : (t : DataType) → Json.Read t.toDocument
  | .decimal p s => by
    refine .obj trivial ?_
    simpa using ⟨.str _, natural_read p, natural_read s⟩
  | .array e n => by
    refine .obj trivial ?_
    simpa using ⟨.str _, document_read e, .bool n⟩
  | .map w n => by
    refine .obj trivial ?_
    simpa using ⟨.str _, document_read w, .bool n⟩
  | .alias name t => by
    refine .obj trivial ?_
    simpa using ⟨.str _, .str name, document_read t⟩
  | .struct fs => by
    refine .obj trivial ?_
    simpa using ⟨.str _, .arr (field_documents_read fs)⟩
  | .null | .string | .boolean | .byte | .short | .integer | .long | .float | .double | .date | .timestamp
  | .binary => .obj trivial (by simpa using .str _)

theorem field_documents_read : (fs : List Field) → ∀ doc ∈ fieldsToDocument fs, Json.Read doc
  | [] => by simp [fieldsToDocument]
  | ⟨name, t, nullable⟩ :: fs => by
    rw [fieldsToDocument, List.forall_mem_cons]
    refine ⟨.obj trivial ?_, field_documents_read fs⟩
    simpa using ⟨.str name, document_read t, .bool nullable⟩

end

theorem field_documents_covered (fs : List Field) : ∀ doc ∈ fieldsToDocument fs,
    Json.Outline.Covers (.entries (fieldEntries.map (·, .all))) doc := by
  induction fs with
  | nil => simp [fieldsToDocument]
  | cons f fs ih =>
    obtain ⟨name, t, nullable⟩ := f
    rw [fieldsToDocument, List.forall_mem_cons]
    refine ⟨.entries ?_, ih⟩
    simp only [List.forall_mem_cons]
    exact ⟨.all _, .all _, .all _, by simp⟩

end DataType

namespace Schema

open DataType

variable {s : Schema}

theorem document_covered (s : Schema) : outline.Covers s.toDocument := by
  refine .entries ?_
  simp only [List.forall_mem_cons]
  exact ⟨.items (field_documents_covered s.fields), by simp⟩

theorem document_read (s : Schema) : Json.Read s.toDocument := by
  refine .obj trivial ?_
  simpa using .arr (field_documents_read s.fields)

theorem of_fields_self (s : Schema) : ofFields s.fields true = .ok s :=
  of_fields_ok_iff.mpr ⟨rfl, s.distinct⟩

theorem fields_back (h : EveryField Bytes s.fields) :
    fieldsOfDocument? (s.toDocument.depth + 1) false (.arr (fieldsToDocument s.fields)) = some s.fields := by
  rw [fieldsOfDocument?]
  apply of_field_documents s.fields h
  simp only [toDocument, Json.depth, Json.membersDepth]
  omega

/-- The text of a schema, under any layout and with blanks behind it, is read as the schema or is too deep. -/
theorem of_text_layout (h : EveryField Bytes s.fields) (l : Json.Layout) (level : Nat) {blanks : List Char}
    (hblanks : blanks.all Json.isSpace = true) :
    ofText (String.ofList (l.chars level s.toDocument ++ blanks)) =
      if s.toDocument.depth ≤ Json.maxNesting then .ok s else .error .jsonDocument := by
  rw [ofText, fieldsOfText?, Json.document_layout l level s.document_read s.document_covered hblanks]
  by_cases hdepth : s.toDocument.depth ≤ Json.maxNesting
  · have hentries : s.toDocument.entries? ["fields"] = _ := Json.entries_single "fields" _
    rw [if_pos hdepth, if_pos hdepth]
    have hmember : Json.member? [("fields", .arr (fieldsToDocument s.fields))] "fields" = _ := List.lookup_cons_self
    simp only [Option.bind_eq_bind, Option.bind_some, hentries, Json.entryOr, hmember, fields_back h, of_fields_self]
  · rw [if_neg hdepth, if_neg hdepth]
    rfl

theorem of_text_printed (h : EveryField Bytes s.fields) (pretty : Bool) {blanks : List Char}
    (hblanks : blanks.all Json.isSpace = true) :
    ofText ((if pretty then s.indentedText else s.compactText) ++ String.ofList blanks) =
      if s.toDocument.depth ≤ Json.maxNesting then .ok s else .error .jsonDocument := by
  cases pretty with
  | true =>
    have htext := of_text_layout h .indented 0 hblanks
    rwa [Json.Layout.indented_chars, String.ofList_append] at htext
  | false =>
    have htext := of_text_layout h .compact 0 hblanks
    rwa [Json.Layout.compact_chars, String.ofList_append] at htext

theorem of_text_written (h : EveryField Bytes s.fields) (pretty : Bool) :
    ofText (if pretty then s.indentedText else s.compactText) =
      if s.toDocument.depth ≤ Json.maxNesting then .ok s else .error .jsonDocument := by
  have hblanks : ([] : List Char).all Json.isSpace = true := rfl
  have hread := of_text_printed h pretty hblanks
  rwa [String.ofList_nil, String.append_empty] at hread

/-- A schema made of any fields is read back from each of its two texts if its document has fewer than 128 levels, and
from neither if it has more. -/
theorem document_round_trip {fields : List Field} {caseSensitive : Bool}
    (h : ofFields fields caseSensitive = .ok s) (hbytes : EveryField Bytes fields) :
    s.fields = fields ∧
      (s.toDocument.depth < 128 → ofText s.indentedText = .ok s ∧ ofText s.compactText = .ok s) ∧
      (128 ≤ s.toDocument.depth →
        ofText s.indentedText = .error .jsonDocument ∧ ofText s.compactText = .error .jsonDocument) := by
  obtain ⟨hfields, -⟩ := of_fields_ok_iff.mp h
  have hmax : Json.maxNesting = 127 := rfl
  have hread := of_text_written (hfields ▸ hbytes)
  refine ⟨hfields, ?_, ?_⟩
  · intro hdepth
    have hle : s.toDocument.depth ≤ Json.maxNesting := by omega
    simp only [if_pos hle] at hread
    exact ⟨hread true, hread false⟩
  · intro hdepth
    have hgt : ¬ s.toDocument.depth ≤ Json.maxNesting := by omega
    simp only [if_neg hgt] at hread
    exact ⟨hread true, hread false⟩

/-- The fields of the struct differ in case only, and the largest bytes make no decimal that a column could hold. -/
theorem document_round_trip_names :
    let fields : List Field :=
      [⟨"", .array (.struct [⟨"id", .null, true⟩, ⟨"ID", .decimal 255 255, false⟩]) false, false⟩,
        ⟨"\"type\": \\ \n", .map (.alias "data_type" (.alias "\u0000é😀" .binary)) true, true⟩]
    ∃ s, ofFields fields true = .ok s ∧ s.fields = fields ∧ s.toDocument.depth = 8 ∧
      ofText s.indentedText = .ok s ∧ ofText s.compactText = .ok s := by
  intro fields
  have hdistinct : repeatedAmong? id [] fields = none := by decide +kernel
  have hok := of_fields_self ⟨fields, hdistinct⟩
  have hbytes : EveryField Bytes fields := by simp [fields, EveryField, Every, Bytes]
  obtain ⟨hfields, hread, -⟩ := document_round_trip hok hbytes
  have hdepth : (toDocument ⟨fields, hdistinct⟩).depth = 8 := rfl
  exact ⟨_, hok, hfields, hdepth, hread (by omega)⟩

end Schema

end TypedRecords
