import TypedRecords.Proofs.Command.Normalize
/-!
# The report of failures

`normalize` ends with the number of failures and the number of records. A record that cannot be read is one failure,
but each of its rows that cannot be written is one as well: the report counts failed records only where no record has
two such rows.
-/

namespace TypedRecords

def Unreported {α : Type} (x : Except Error α) : Prop :=
  FailsOnly (fun e => ∀ failed total, e ≠ .recordsFailed failed total) x

section Loading

theorem Files.require_unreported (files : Files) (path : String) : Unreported (files.require path) := by
  unfold require
  split
  · split
    · exact .ok _
    · exact .error nofun
  · exact .error nofun

theorem Source.scan_unreported (files : Files) (source : Source) : Unreported (source.scan files) := by
  cases source with
  | memory records => exact .ok records
  | lines path => exact (files.require_unreported path).map recordsOfText

namespace Options

theorem validate_unreported (o : Options) : Unreported o.validate := by
  unfold validate
  split
  · exact .error nofun
  · split
    · exact .error nofun
    · split
      · exact .error nofun
      · exact .ok ()

theorem validated_unreported (o : Options) : Unreported o.validated := (validate_unreported o).map fun _ => o

theorem of_json_unreported (text : String) : Unreported (ofJson text) := by
  unfold ofJson
  dsimp only
  split
  · exact validated_unreported _
  · exact .error nofun

theorem of_yaml_unreported (text : String) : Unreported (ofYaml text) := by
  unfold ofYaml
  split
  · exact validated_unreported _
  · exact .error nofun

theorem of_file_unreported (files : Files) (path : String) : Unreported (ofFile files path) := by
  apply (files.require_unreported path).bind
  intro text
  split
  · exact of_json_unreported text
  · exact of_yaml_unreported text
  · exact of_yaml_unreported text
  · exact .error nofun

end Options

namespace Schema

theorem of_fields_unreported (fields : List Field) (caseSensitive : Bool) :
    Unreported (ofFields fields caseSensitive) := by
  unfold ofFields
  split
  · exact .error nofun
  · exact .ok _

theorem of_type_unreported (t : DataType) (caseSensitive : Bool) : Unreported (ofType t caseSensitive) := by
  cases t with
  | struct fs => exact of_fields_unreported fs caseSensitive
  | _ => exact .ok empty

theorem of_text_unreported (text : String) : Unreported (ofText text) := by
  unfold ofText
  split
  · next fields _ => exact of_fields_unreported fields true
  · exact .error nofun

end Schema

theorem Sampler.of_ratio_unreported (ratio : Double) (seed : UInt64) : Unreported (ofRatio ratio seed) := by
  unfold ofRatio
  split
  · exact .error nofun
  · split
    · exact .ok _
    · exact .ok _

theorem infer_schema_unreported (o : Options) (records : List String) : Unreported (inferSchema o records) := by
  apply o.validate_unreported.bind
  intro _
  apply (Sampler.of_ratio_unreported o.samplingRatio o.samplingSeed).bind
  intro sampler
  unfold Inference.schemaOfRoot
  split
  · exact Schema.of_type_unreported _ _
  · exact .ok _

end Loading

namespace Command

open RowStream (panics)

variable {s : Schema} {o : Options} {records : List String}

theorem load_options_unreported (files : Files) (options : Option String) : Unreported (loadOptions files options) := by
  cases options with
  | none => exact .ok _
  | some path => exact Options.of_file_unreported files path

theorem load_schema_unreported (files : Files) (path : String) : Unreported (loadSchema files path) := by
  unfold loadSchema
  split
  · exact Schema.of_text_unreported _
  · exact .error nofun

theorem schema_for_unreported (files : Files) (o : Options) (input : String) (schema : Option String) :
    Unreported (schemaFor files o input schema) := by
  cases schema with
  | some path => exact load_schema_unreported files path
  | none => exact (Source.scan_unreported files (.lines input)).bind (infer_schema_unreported o)

theorem report_loaded {files : Files} {options schema : Option String} {verbose : Bool} {input : String}
    {failed total : Nat}
    (h : (run files ⟨options, verbose, .normalize input schema⟩).failure = some (.recordsFailed failed total)) :
    ∃ o s records, loadOptions files options = .ok o ∧ schemaFor files o input schema = .ok s ∧
      Source.scan files (.lines input) = .ok records ∧
      (normalizeRecords s o records).failure = some (.recordsFailed failed total) := by
  cases hoptions : loadOptions files options with
  | error e =>
    simp only [run, hoptions] at h
    exact absurd (Option.some.inj h) (load_options_unreported files options e hoptions failed total)
  | ok o =>
    simp only [run, hoptions, normalize] at h
    cases hschema : schemaFor files o input schema with
    | error e =>
      rw [hschema] at h
      exact absurd (Option.some.inj h) (schema_for_unreported files o input schema e hschema failed total)
    | ok s =>
      rw [hschema] at h
      cases hscan : Source.scan files (.lines input) with
      | error e =>
        rw [hscan] at h
        exact absurd (Option.some.inj h) (Source.scan_unreported files _ e hscan failed total)
      | ok records =>
        rw [hscan] at h
        exact ⟨o, s, records, rfl, hschema, rfl, h⟩

def recordFails (s : Schema) (o : Options) (text : String) : Bool :=
  match Decode.record s o text with
  | .ok rows => rows.any fun row => (Encode.row s row).toOption.isNone
  | .error _ => true

theorem record_fails_iff (s : Schema) (o : Options) (text : String) :
    recordFails s o text = true ↔ 0 < failures s o text := by
  unfold recordFails failures
  cases Decode.record s o text with
  | error e => simp
  | ok rows => rw [List.any_eq_true, List.countP_pos_iff]

/-- The failures of all records are at least as many as the failed records. They are as many only if each failed record
has one failure. -/
theorem failures_sum (s : Schema) (o : Options) (records : List String) :
    records.countP (recordFails s o) ≤ (records.map (failures s o)).sum ∧
      ((records.map (failures s o)).sum = records.countP (recordFails s o) ↔
        ∀ text ∈ records, failures s o text ≤ 1) := by
  induction records with
  | nil => simp
  | cons text records ih =>
    obtain ⟨hle, hiff⟩ := ih
    have hfails := record_fails_iff s o text
    rw [List.countP_cons, List.map_cons, List.sum_cons, List.forall_mem_cons, ← hiff]
    by_cases hrecord : recordFails s o text = true
    · have hpos := hfails.mp hrecord
      rw [if_pos hrecord]
      omega
    · have hzero := mt hfails.mpr hrecord
      rw [if_neg hrecord]
      omega

theorem failure_report {failed total : Nat} (h : failureOf s o records = some (.recordsFailed failed total)) :
    total = records.length ∧ failed = (records.map (failures s o)).sum := by
  unfold failureOf at h
  split_ifs at h
  · cases h
  · cases h
    exact ⟨rfl, rfl⟩

/-- A report of `normalize` has the number of the records and the number of their failures. This is the number of the
failed records, and no more than all of them, as long as no record has two rows that cannot be written. -/
theorem reported_failures {files : Files} {options schema : Option String} {verbose : Bool} {input : String}
    {failed total : Nat}
    (h : (run files ⟨options, verbose, .normalize input schema⟩).failure = some (.recordsFailed failed total)) :
    ∃ o s records, loadOptions files options = .ok o ∧ schemaFor files o input schema = .ok s ∧
      Source.scan files (.lines input) = .ok records ∧ total = records.length ∧
      failed = (records.map (failures s o)).sum ∧
      (failed = records.countP (recordFails s o) ↔ ∀ text ∈ records, failures s o text ≤ 1) ∧
      ((∀ text ∈ records, failures s o text ≤ 1) → failed ≤ total) := by
  obtain ⟨o, s, records, hoptions, hschema, hscan, hreport⟩ := report_loaded h
  rw [normalize_outcome] at hreport
  obtain ⟨rfl, rfl⟩ := failure_report hreport
  obtain ⟨-, hiff⟩ := failures_sum s o records
  refine ⟨o, s, records, hoptions, hschema, hscan, rfl, rfl, hiff, ?_⟩
  intro hone
  calc (records.map (failures s o)).sum = records.countP (recordFails s o) := hiff.mpr hone
    _ ≤ records.length := List.countP_le_length

section Days

def dayColumn : Schema := ⟨[⟨"d", .date, true⟩], rfl⟩

def savedDays : Files := Files.save (fun _ => .missing) "schema.json" dayColumn.compactText

theorem load_days : loadSchema savedDays "schema.json" = .ok dayColumn :=
  load_compact _ _ ⟨trivial, trivial⟩ (by decide)

theorem day_schema (text : String) :
    schemaFor (savedDays.save "in.jsonl" text) {} "in.jsonl" (some "schema.json") = .ok dayColumn := by
  rw [schemaFor, save_schema (by decide)]
  exact load_days

theorem day_run (text : String) :
    run (savedDays.save "in.jsonl" text) ⟨none, false, .normalize "in.jsonl" (some "schema.json")⟩ =
      normalizeRecords dayColumn {} (Source.recordsOfText text) :=
  normalize_saved rfl load_days (by decide) nofun

/-- A row that cannot be written beside one that can, a record that cannot be read, and a record without a failure. -/
theorem reported_failures_days :
    let records := ["[\x7b\"d\":1\x7d,\x7b\"d\":2147483647\x7d]", "\x7b\"d\":\"x\"\x7d", "\x7b\"d\":2\x7d"]
    let files := savedDays.save "in.jsonl" (String.join (records.map (· ++ "\n")))
    (run files ⟨none, false, .normalize "in.jsonl" (some "schema.json")⟩).failure = some (.recordsFailed 2 3) ∧
      Source.scan files (.lines "in.jsonl") = .ok records ∧ records.countP (recordFails dayColumn {}) = 2 := by
  intro records files
  have hrecords : Source.recordsOfText (String.join (records.map (· ++ "\n"))) = records := by decide +kernel
  have hscan : Source.scan files (.lines "in.jsonl") = .ok records := by
    rw [Files.scan_saved, hrecords]
  have hcalm : records.any (panics (Decode.record dayColumn {})) = false := by decide +kernel
  have hfailures : records.map (failures dayColumn {}) = [1, 1, 0] := by decide +kernel
  have hreport : (run files ⟨none, false, .normalize "in.jsonl" (some "schema.json")⟩).failure =
      some (.recordsFailed 2 3) := by
    rw [day_run, hrecords, normalize_outcome, failureOf, hcalm, hfailures]
    rfl
  refine ⟨hreport, hscan, ?_⟩
  obtain ⟨o, s, records', hoptions, hschema, hscan', -, -, hiff, -⟩ := reported_failures hreport
  have hdefault : o = {} := (Except.ok.inj hoptions).symm
  subst hdefault
  obtain rfl := Except.ok.inj ((day_schema _).symm.trans hschema)
  obtain rfl := Except.ok.inj (hscan.symm.trans hscan')
  have hone : ∀ text ∈ records, failures dayColumn {} text ≤ 1 := by
    rw [← List.forall_mem_map (P := (· ≤ 1)), hfailures]
    decide
  exact (hiff.mpr hone).symm

/-- Two rows of one record that cannot be written are reported as two records of one. -/
theorem failures_exceed_records :
    let record := "[\x7b\"d\":2147483647\x7d,\x7b\"d\":2147483647\x7d]"
    let files := savedDays.save "in.jsonl" (record ++ "\n")
    (run files ⟨none, false, .normalize "in.jsonl" (some "schema.json")⟩).failure = some (.recordsFailed 2 1) ∧
      Source.scan files (.lines "in.jsonl") = .ok [record] ∧ [record].countP (recordFails dayColumn {}) = 1 := by
  intro record files
  have hrecords : Source.recordsOfText (record ++ "\n") = [record] := by decide +kernel
  have hcalm : [record].any (panics (Decode.record dayColumn {})) = false := by decide +kernel
  have hfailures : failures dayColumn {} record = 2 := by decide +kernel
  have hreport : (run files ⟨none, false, .normalize "in.jsonl" (some "schema.json")⟩).failure =
      some (.recordsFailed 2 1) := by
    rw [day_run, hrecords, normalize_outcome, failureOf, hcalm, List.map_singleton, hfailures]
    rfl
  have hfails : recordFails dayColumn {} record = true := by
    rw [record_fails_iff, hfailures]
    exact Nat.two_pos
  refine ⟨hreport, ?_, ?_⟩
  · rw [Files.scan_saved, hrecords]
  · rw [List.countP_singleton, if_pos hfails]

end Days

end Command

end TypedRecords
