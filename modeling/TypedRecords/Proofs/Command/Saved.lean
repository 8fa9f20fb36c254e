import TypedRecords.Command.Run
import TypedRecords.Proofs.Inference.Canonical
import TypedRecords.Proofs.Json.RoundTrip
import TypedRecords.Proofs.Row.Sequence
import TypedRecords.Proofs.Schema.Document
/-!
# Saved schemas

The schema that `infer` prints is loaded again by `normalize` as long as its document nests no deeper than the reader
of texts allows. A struct takes three levels of the document, so records that can be read may have a schema that
cannot be.
-/

namespace TypedRecords

namespace Files

def save (files : Files) (path text : String) : Files := fun p => if p = path then .bytes text.toUTF8 else files p

variable {files : Files} {path text p : String}

theorem save_read (files : Files) (path text : String) : (files.save path text).readText path = .ok text := by
  have hutf8 : String.fromUTF8? text.toUTF8 = some text := dif_pos text.isValidUTF8
  have hfile : files.save path text path = .bytes text.toUTF8 := if_pos rfl
  simp only [readText, hfile, hutf8]

theorem scan_read (h : files.readText path = .ok text) :
    Source.scan files (.lines path) = .ok (Source.recordsOfText text) := by
  have hpresent : files.present path = true := by
    cases hfile : files path with
    | bytes _ => simp only [present, hfile]
    | directory => simp only [present, hfile]
    | _ =>
      rw [readText, hfile] at h
      contradiction
  rw [Source.scan, require, if_pos hpresent, h]
  rfl

theorem scan_saved (files : Files) (path text : String) :
    Source.scan (files.save path text) (.lines path) = .ok (Source.recordsOfText text) :=
  scan_read (save_read files path text)

theorem save_require (h : p ≠ path) : (files.save path text).require p = files.require p := by
  have hfile : files.save path text p = files p := if_neg h
  unfold require present readText
  rw [hfile]

theorem save_other (h : p ≠ path) : (files.save path text).readText p = files.readText p := by
  have hfile : files.save path text p = files p := if_neg h
  rw [readText, readText, hfile]

theorem save_scan (h : p ≠ path) :
    Source.scan (files.save path text) (.lines p) = Source.scan files (.lines p) := by
  simp only [Source.scan, save_require h]

end Files

namespace Command

open DataType

variable {files : Files} {o : Options} {s : Schema} {records : List String} {input path text : String}

theorem save_options (options : Option String) (h : ∀ p ∈ options, p ≠ path) :
    loadOptions (files.save path text) options = loadOptions files options := by
  cases options with
  | none => rfl
  | some p =>
    have hp : p ≠ path := h p rfl
    simp only [loadOptions, Options.ofFile, Files.save_require hp]

theorem save_schema {schema : String} (h : schema ≠ path) :
    loadSchema (files.save path text) schema = loadSchema files schema := by
  rw [loadSchema, loadSchema, Files.save_other h]

theorem load_compact (files : Files) (path : String) (h : EveryField Bytes s.fields)
    (hdepth : s.toDocument.depth ≤ Json.maxNesting) : loadSchema (files.save path s.compactText) path = .ok s := by
  have hread := Schema.of_text_written h false
  rw [if_pos hdepth] at hread
  rw [loadSchema, Files.save_read]
  exact hread

theorem inferred_bytes (h : inferSchema o records = .ok s) : EveryField Bytes s.fields := by
  have hbytes (t : DataType) (ht : Storable t) : Bytes t := by
    cases t with
    | decimal p q =>
      have hmax : maxPrecision = 38 := rfl
      obtain ⟨-, hp, hq⟩ := ht
      exact ⟨by omega, by omega⟩
    | _ => trivial
  rcases Inference.infer_schema_storable h with rfl | hstorable
  · trivial
  · exact (Every.imp hbytes _ hstorable).2

theorem infer_output (h : (Source.scan files (.lines input)).bind (inferSchema o) = .ok s) (pretty : Bool) :
    (Outcome.ofExcept (inferLines files o input none pretty)).output =
      (if pretty then s.indentedText else s.compactText) ++ "\n" := by
  obtain ⟨records, hscan, hrecords⟩ := bind_ok_inv h
  -- Without a ratio of its own `infer` has that of the options.
  have hinfer : inferSchema { o with samplingRatio := (none : Option Double).getD o.samplingRatio } records = .ok s :=
    hrecords
  simp only [inferLines, hscan, bind, Except.bind, hinfer]
  cases pretty <;> simp [Outcome.ofExcept, Outcome.output, pure, Except.pure]

theorem saved_schema (h : (Source.scan files (.lines input)).bind (inferSchema o) = .ok s) (pretty : Bool)
    (path : String) :
    loadSchema (files.save path (Outcome.ofExcept (inferLines files o input none pretty)).output) path =
      if s.toDocument.depth ≤ Json.maxNesting then .ok s else .error .jsonDocument := by
  obtain ⟨records, -, hrecords⟩ := bind_ok_inv h
  have hblanks : ['\n'].all Json.isSpace = true := rfl
  rw [loadSchema, Files.save_read]
  dsimp only
  rw [infer_output h]
  exact Schema.of_text_printed (inferred_bytes hrecords) pretty hblanks

/-- A schema that inference gives is read back from its texts exactly when its document nests no deeper than the
reader allows. Up to there `normalize` does the same with the saved output of `infer` as with the records alone. -/
theorem inferred_schema_saved (o : Options) :
    (∀ records s, inferSchema o records = .ok s → ∀ text ∈ [s.indentedText, s.compactText],
      Schema.ofText text = if s.toDocument.depth ≤ Json.maxNesting then .ok s else .error .jsonDocument) ∧
    (∀ (files : Files) options input path verbose pretty s, input ≠ path → (∀ p ∈ options, p ≠ path) →
      loadOptions files options = .ok o → (Source.scan files (.lines input)).bind (inferSchema o) = .ok s →
        run (files.save path (run files ⟨options, verbose, .infer input none pretty⟩).output)
            ⟨options, verbose, .normalize input (some path)⟩ =
          if s.toDocument.depth ≤ Json.maxNesting then run files ⟨options, verbose, .normalize input none⟩
          else ⟨[], some .jsonDocument⟩) := by
  constructor
  · intro records s h text htext
    have hblanks : ([] : List Char).all Json.isSpace = true := rfl
    have hread (pretty : Bool) := Schema.of_text_printed (inferred_bytes h) pretty hblanks
    rw [List.mem_pair] at htext
    rcases htext with rfl | rfl
    · simpa using hread true
    · simpa using hread false
  · intro files options input path verbose pretty s hinput hoptions hload h
    have hprinted : (run files ⟨options, verbose, .infer input none pretty⟩).output =
        (Outcome.ofExcept (inferLines files o input none pretty)).output := by simp only [run, hload]
    rw [hprinted]
    have hsaved := saved_schema h pretty path
    -- The options and the records are the same before and after the schema is saved.
    simp only [run, save_options options hoptions, hload, normalize, schemaFor, hsaved, Files.save_scan hinput, h]
    by_cases hdepth : s.toDocument.depth ≤ Json.maxNesting
    · rw [if_pos hdepth, if_pos hdepth]
    · rw [if_neg hdepth, if_neg hdepth]
      rfl

/-- The schema of one record with an array, saved with its indented text. -/
theorem inferred_schema_saved_array :
    let files := Files.save (fun _ => .missing) "in.jsonl" "\x7b\"a\":[1.5]\x7d\n"
    let s : Schema := ⟨[⟨"a", .array .double true, true⟩], rfl⟩
    let printed := (run files ⟨none, false, .infer "in.jsonl" none true⟩).output
    inferSchema {} ["\x7b\"a\":[1.5]\x7d"] = .ok s ∧ Schema.ofText s.compactText = .ok s ∧
      (Source.scan files (.lines "in.jsonl")).bind (inferSchema {}) = .ok s ∧
      run (files.save "schema.json" printed) ⟨none, false, .normalize "in.jsonl" (some "schema.json")⟩ =
        run files ⟨none, false, .normalize "in.jsonl" none⟩ := by
  intro files s printed
  have hinfer : inferSchema {} ["\x7b\"a\":[1.5]\x7d"] = .ok s := by
    rw [Inference.infer_schema_all Inference.default_valid Inference.default_unsampled]
    decide +kernel
  have hlines : Source.recordsOfText "\x7b\"a\":[1.5]\x7d\n" = ["\x7b\"a\":[1.5]\x7d"] := by decide +kernel
  have hscan : Source.scan files (.lines "in.jsonl") = .ok ["\x7b\"a\":[1.5]\x7d"] := by
    rw [Files.scan_saved, hlines]
  have hbind : (Source.scan files (.lines "in.jsonl")).bind (inferSchema {}) = .ok s := by
    simp only [hscan, Except.bind, hinfer]
  have hdepth : s.toDocument.depth ≤ Json.maxNesting := by decide
  have htext := (inferred_schema_saved {}).1 _ s hinfer s.compactText (by simp)
  have hrun := (inferred_schema_saved {}).2 files none "in.jsonl" "schema.json" false true s (by decide) nofun rfl hbind
  rw [if_pos hdepth] at htext hrun
  exact ⟨hinfer, htext, hbind, hrun⟩

section Nested

def nestedRecord : Nat → Json
  | 0 => .num "1"
  | n + 1 => .obj [("a", nestedRecord n)]

def nestedType : Nat → DataType
  | 0 => .long
  | n + 1 => .struct [⟨"a", nestedType n, true⟩]

theorem nested_record_formed {p : List String → Prop} (hp : p ["a"]) (n : Nat) : Json.Formed p (nestedRecord n) := by
  induction n with
  | zero => exact .num ⟨false, ['1'], [], none, by decide, by decide, rfl, by simp⟩
  | succ n ih => exact .obj hp (by simpa using ih)

theorem nested_record_depth (n : Nat) : (nestedRecord n).depth = n := by
  induction n with
  | zero => rfl
  | succ n ih => rw [nestedRecord, Json.depth, Json.membersDepth, Json.membersDepth, ih, Nat.max_zero]

theorem nested_record_type (n : Nat) : Inference.typeOf {} (nestedRecord n) = nestedType n := by
  induction n with
  | zero => decide +kernel
  | succ n ih =>
    rw [nestedRecord, Inference.typeOf, Inference.typeOfMembers, ih]
    rfl

theorem nested_type_canonical (n : Nat) : (nestedType n).canonical? = some (nestedType n) := by
  induction n with
  | zero => rfl
  | succ n ih => simp [nestedType, canonical?, canonicalFields, ih]

theorem nested_type_distinct (n : Nat) : (nestedType n).repeatedName? id = none := by
  induction n with
  | zero => rfl
  | succ n ih => simp [nestedType, DataType.repeatedName?, repeatedAmong?, ih]

def nestedSchema (n : Nat) : Schema := ⟨[⟨"a", nestedType n, true⟩], nested_type_distinct (n + 1)⟩

theorem nested_type_depth (n : Nat) : (nestedType n).toDocument.depth = 3 * n + 1 := by
  induction n with
  | zero => rfl
  | succ n ih =>
    simp [nestedType, toDocument, fieldsToDocument, tagged_depth, Json.depth, Json.membersDepth, Json.itemsDepth, ih]
    omega

theorem nested_schema_depth (n : Nat) : (nestedSchema n).toDocument.depth = 3 * n + 4 := by
  simp [nestedSchema, Schema.toDocument, fieldsToDocument, Json.depth, Json.membersDepth, Json.itemsDepth,
    nested_type_depth]

theorem nested_schema_inferred {n : Nat} (h : n < Json.maxNesting) :
    inferSchema {} [(nestedRecord (n + 1)).compact] = .ok (nestedSchema n) := by
  have hdepth : (nestedRecord (n + 1)).depth ≤ Json.maxNesting := by
    rw [nested_record_depth]
    exact h
  have htext := Json.of_text_compact (nested_record_formed (by decide) _) (nested_record_formed (by decide) _) hdepth
  have hroot : Inference.mergeAllRoots {} ([(nestedRecord (n + 1)).compact].map (Inference.typeOfRecord {})) =
      nestedType (n + 1) := by
    rw [List.map_singleton, Inference.typeOfRecord, htext]
    dsimp only
    rw [nested_record_type]
    rfl
  rw [Inference.infer_schema_all Inference.default_valid Inference.default_unsampled, hroot, Inference.schemaOfRoot,
    nested_type_canonical]
  exact Schema.of_fields_ok_iff.mpr ⟨rfl, (nestedSchema n).distinct⟩

/-- The record is read up to 127 objects within each other, its schema up to 42. -/
theorem nested_schema_text {n : Nat} (h : n < Json.maxNesting) (pretty : Bool) :
    Schema.ofText (if pretty then (nestedSchema n).indentedText else (nestedSchema n).compactText) =
      if n < 42 then .ok (nestedSchema n) else .error .jsonDocument := by
  have hread := Schema.of_text_written (inferred_bytes (nested_schema_inferred h)) pretty
  have hmax : Json.maxNesting = 127 := rfl
  rw [nested_schema_depth] at hread
  rw [hread]
  by_cases hn : n < 42
  · rw [if_pos hn, if_pos (by omega)]
  · rw [if_neg hn, if_neg (by omega)]

/-- One object more than the schema's text can be read with. -/
theorem nested_schema_lost :
    inferSchema {} [(nestedRecord 43).compact] = .ok (nestedSchema 42) ∧
      Schema.ofText (nestedSchema 42).indentedText = .error .jsonDocument ∧
      Schema.ofText (nestedSchema 42).compactText = .error .jsonDocument := by
  have hdeep : 42 < Json.maxNesting := by decide
  exact ⟨nested_schema_inferred hdeep, nested_schema_text hdeep true, nested_schema_text hdeep false⟩

end Nested

end Command

end TypedRecords
