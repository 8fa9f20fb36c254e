import TypedRecords.Proofs.Command.Saved
import TypedRecords.Proofs.Row.Failure
import TypedRecords.Proofs.Row.Stream
/-!
# Normalizing to the end

`normalize` prints every row that can be read and written, in the order of the records, whatever fails before it at record
level. These failures are counted for the report at the end. A record that panics ends the run, and nothing else does.
-/

namespace TypedRecords

open RowStream (itemsOf panics reached)

/-- The rows of the records that can be read, up to the first record that panics. -/
def decodedRows (s : Schema) (o : Options) (records : List String) : List Row :=
  (reached (Decode.record s o) records).flatMap fun text => (Decode.record s o text).toOption.getD []

def writtenRows (s : Schema) (rows : List Row) : List String := rows.filterMap fun row => (Encode.row s row).toOption

theorem mem_decoded_rows {s : Schema} {o : Options} {records : List String} {row : Row}
    (h : row ∈ decodedRows s o records) : ∃ text ∈ records, ∃ rows, Decode.record s o text = .ok rows ∧ row ∈ rows := by
  obtain ⟨text, htext, hrow⟩ := List.mem_flatMap.mp h
  cases hdecode : Decode.record s o text with
  | error e => simp [hdecode, Except.toOption] at hrow
  | ok rows =>
    rw [hdecode] at hrow
    exact ⟨text, RowStream.mem_of_reached htext, rows, hdecode, hrow⟩

theorem decoded_rows_calm {s : Schema} {o : Options} {records : List String}
    (h : ∀ text ∈ records, Decode.record s o text ≠ .error .panic) :
    decodedRows s o records = records.flatMap fun text => (Decode.record s o text).toOption.getD [] := by
  rw [decodedRows, RowStream.reached_of_calm h]

theorem decoded_rows_single {s : Schema} {o : Options} {text : String} {rows : List Row}
    (h : Decode.record s o text = .ok rows) : decodedRows s o [text] = rows := by
  have hcalm : ∀ line ∈ [text], Decode.record s o line ≠ .error .panic := by
    rw [List.forall_mem_singleton, h]
    exact nofun
  rw [decoded_rows_calm hcalm, List.flatMap_singleton, h]
  rfl

namespace Command

variable {s : Schema} {o : Options} {items : List (Except Error String)} {records : List String}

/-- What a record contributes to the output: the text or the failure of each row, or the failure of the record. -/
def outcomes (s : Schema) (o : Options) (text : String) : List (Except Error String) :=
  match Decode.record s o text with
  | .ok rows => rows.map (Encode.row s)
  | .error e => [.error e]

theorem decoded_outcomes (s : Schema) (o : Options) (records : List String) :
    (decodeRecords s o records).map (fun item => item.bind (Encode.row s)) =
      (reached (Decode.record s o) records).flatMap (outcomes s o) ++
        if records.any (panics (Decode.record s o)) then [.error .panic] else [] := by
  rw [decode_records_reached, List.map_append, List.map_flatMap]
  congr 1
  · congr 1
    funext text
    unfold itemsOf outcomes
    cases Decode.record s o text with
    | error e => rfl
    | ok rows =>
      rw [List.map_map]
      rfl
  · split <;> rfl

theorem outcomes_contained {text : String} (hcalm : Decode.record s o text ≠ .error .panic) :
    ∀ item ∈ outcomes s o text, Contained item := by
  intro item hitem
  unfold outcomes at hitem
  cases hdecode : Decode.record s o text with
  | error e =>
    rw [hdecode, List.mem_singleton] at hitem
    rw [hitem]
    rcases Decode.record_faults s o text e hdecode with hlevel | ⟨rfl, -⟩
    · exact .error hlevel
    · exact absurd hdecode hcalm
  | ok rows =>
    rw [hdecode] at hitem
    obtain ⟨row, -, rfl⟩ := List.mem_map.mp hitem
    exact Encode.row_contained s row

def recordLines (s : Schema) (o : Options) (text : String) : List String :=
  writtenRows s ((Decode.record s o text).toOption.getD [])

theorem written_records (s : Schema) (o : Options) (records : List String) :
    writtenRows s (decodedRows s o records) = (reached (Decode.record s o) records).flatMap (recordLines s o) :=
  List.filterMap_flatMap

theorem outcomes_written (s : Schema) (o : Options) (text : String) :
    (outcomes s o text).filterMap Except.toOption = recordLines s o text := by
  unfold outcomes recordLines
  cases Decode.record s o text with
  | error e => rfl
  | ok rows => exact List.filterMap_map

/-- How many failures a record gives: its own, or one for each of its rows that cannot be written. -/
def failures (s : Schema) (o : Options) (text : String) : Nat :=
  match Decode.record s o text with
  | .ok rows => rows.countP fun row => (Encode.row s row).toOption.isNone
  | .error _ => 1

theorem outcomes_failures (s : Schema) (o : Options) (text : String) :
    (outcomes s o text).countP (fun item => item.toOption.isNone) = failures s o text := by
  unfold outcomes failures
  cases Decode.record s o text with
  | error e => rfl
  | ok rows => exact List.countP_map

theorem failures_zero_iff (s : Schema) (o : Options) (text : String) :
    failures s o text = 0 ↔ (∃ rows, Decode.record s o text = .ok rows) ∧
      ∀ row ∈ (Decode.record s o text).toOption.getD [], ∃ line, Encode.row s row = .ok line := by
  have hsome (item : Except Error String) : ¬ item.toOption.isNone = true ↔ ∃ line, item = .ok line := by
    cases item <;> simp [Except.toOption]
  unfold failures
  cases Decode.record s o text with
  | error e => simp
  | ok rows =>
    simp only [List.countP_eq_zero, hsome]
    simp [Except.toOption]

/-- Items that fail at record level at most are all collected, each printed or counted, before those behind them. -/
theorem collect_append (h : ∀ item ∈ items, Contained item) (rest : List (Except Error String)) :
    collect (items ++ rest) = (items.filterMap Except.toOption ++ (collect rest).1,
      items.countP (fun item => item.toOption.isNone) + (collect rest).2.1, (collect rest).2.2) := by
  induction items with
  | nil => simp
  | cons item items ih =>
    rw [List.forall_mem_cons] at h
    have hrest := ih h.2
    rw [List.cons_append]
    cases item with
    | ok line =>
      have hcount : (Except.ok line : Except Error String).toOption.isNone = false := rfl
      rw [collect, hrest, List.countP_cons, hcount]
      rfl
    | error e =>
      have hcount : (Except.error e : Except Error String).toOption.isNone = true := rfl
      rw [collect, if_pos (h.1 e rfl), hrest, List.countP_cons, hcount, Nat.add_right_comm]
      rfl

/-- The failure that a run ends with, if any: a panic, or the number of all failures of its records. -/
def failureOf (s : Schema) (o : Options) (records : List String) : Option Error :=
  if records.any (panics (Decode.record s o)) then some .panic
  else if (records.map (failures s o)).sum = 0 then none
  else some (.recordsFailed (records.map (failures s o)).sum records.length)

/-- The rows that can be written are printed up to a panic. Without one the failures of all records are reported as one
number. -/
theorem normalize_outcome (s : Schema) (o : Options) (records : List String) :
    normalizeRecords s o records = ⟨writtenRows s (decodedRows s o records), failureOf s o records⟩ := by
  have hcontained : ∀ item ∈ (reached (Decode.record s o) records).flatMap (outcomes s o), Contained item := by
    intro item hitem
    obtain ⟨text, htext, hitem⟩ := List.mem_flatMap.mp hitem
    exact outcomes_contained (RowStream.reached_calm text htext) item hitem
  have hlines : ((reached (Decode.record s o) records).flatMap (outcomes s o)).filterMap Except.toOption =
      writtenRows s (decodedRows s o records) := by
    rw [List.filterMap_flatMap, written_records]
    congr 1
    funext text
    exact outcomes_written s o text
  rw [normalizeRecords, decoded_outcomes, collect_append hcontained, hlines, failureOf]
  by_cases hpanics : records.any (panics (Decode.record s o)) = true
  · rw [if_pos hpanics, if_pos hpanics]
    simp [collect, Error.isRecordLevel]
  · have hcalm : ∀ text ∈ records, Decode.record s o text ≠ .error .panic := by
      intro text htext hpanic
      exact hpanics (RowStream.any_panics_iff.mpr ⟨text, htext, hpanic⟩)
    have hfailures : (records.flatMap (outcomes s o)).countP (fun item => item.toOption.isNone) =
        (records.map (failures s o)).sum := by
      rw [List.countP_flatMap]
      congr 2
      funext text
      exact outcomes_failures s o text
    rw [if_neg hpanics, if_neg hpanics, RowStream.reached_of_calm hcalm, hfailures]
    cases (records.map (failures s o)).sum <;> simp [collect]

/-- A run succeeds when every record is read and every row of it written. It panics with a record, and fails with a report
of its failures otherwise. -/
theorem failure_cases (s : Schema) (o : Options) (records : List String) :
    (failureOf s o records = none ↔ (∀ text ∈ records, ∃ rows, Decode.record s o text = .ok rows) ∧
        ∀ row ∈ decodedRows s o records, ∃ line, Encode.row s row = .ok line) ∧
      (failureOf s o records = some .panic ↔ ∃ text ∈ records, Decode.record s o text = .error .panic) ∧
      ∀ e, failureOf s o records = some e → e = .panic ∨ ∃ failed, 0 < failed ∧ e = .recordsFailed failed records.length := by
  rw [failureOf]
  by_cases hpanics : records.any (panics (Decode.record s o)) = true
  · obtain ⟨text, htext, hpanic⟩ := RowStream.any_panics_iff.mp hpanics
    rw [if_pos hpanics]
    refine ⟨iff_of_false nofun ?_, iff_of_true rfl ⟨text, htext, hpanic⟩, fun e he => Or.inl (Option.some.inj he).symm⟩
    rintro ⟨hread, -⟩
    obtain ⟨rows, hrows⟩ := hread text htext
    rw [hpanic] at hrows
    cases hrows
  · have hnone : ¬ ∃ text ∈ records, Decode.record s o text = .error .panic := by rwa [← RowStream.any_panics_iff]
    have hcalm : ∀ text ∈ records, Decode.record s o text ≠ .error .panic :=
      fun text htext hpanic => hnone ⟨text, htext, hpanic⟩
    rw [if_neg hpanics, decoded_rows_calm hcalm, List.forall_mem_flatMap, ← forall₂_and]
    have hzero : (records.map (failures s o)).sum = 0 ↔ ∀ text ∈ records,
        (∃ rows, Decode.record s o text = .ok rows) ∧
          ∀ row ∈ (Decode.record s o text).toOption.getD [], ∃ line, Encode.row s row = .ok line := by
      rw [List.sum_eq_zero_iff_forall_eq_nat, List.forall_mem_map]
      exact forall₂_congr fun text _ => failures_zero_iff s o text
    rw [← hzero]
    generalize (records.map (failures s o)).sum = failed
    by_cases hfailed : failed = 0
    · rw [if_pos hfailed]
      exact ⟨iff_of_true rfl hfailed, iff_of_false nofun hnone, nofun⟩
    · rw [if_neg hfailed]
      refine ⟨iff_of_false nofun hfailed, iff_of_false nofun hnone, ?_⟩
      intro e he
      exact Or.inr ⟨failed, by omega, (Option.some.inj he).symm⟩

theorem normalize_saved {files : Files} {options : Option String} {verbose : Bool} {schema path text : String}
    (hoptions : loadOptions files options = .ok o) (hschema : loadSchema files schema = .ok s) (hpath : schema ≠ path)
    (hother : ∀ p ∈ options, p ≠ path) :
    run (files.save path text) ⟨options, verbose, .normalize path (some schema)⟩ =
      normalizeRecords s o (Source.recordsOfText text) := by
  have hoptions' : loadOptions (files.save path text) options = .ok o := (save_options options hother).trans hoptions
  have hschema' : loadSchema (files.save path text) schema = .ok s := (save_schema hpath).trans hschema
  simp only [run, hoptions', normalize, schemaFor, hschema', Files.scan_saved]
  rfl

/-- Encoding fails at record level only, and so does decoding, but for a panic under a decimal with places. So under options
and a schema that are there `normalize` prints the text of every row that can be read and written, in order, up to a record
that panics. It fails with that panic, or at the end if there was any failure on the way. -/
theorem normalize_complete (s : Schema) (o : Options) :
    (∀ text e, Decode.record s o text = .error e → Decode.Fault s.toType e) ∧
      (∀ row e, Encode.row s row = .error e → e.isRecordLevel = true) ∧
      ∀ (files : Files) options verbose input schema text, loadOptions files options = .ok o →
        files.readText input = .ok text → schemaFor files o input schema = .ok s →
        let records := Source.recordsOfText text
        let outcome := run files ⟨options, verbose, .normalize input schema⟩
        outcome.output = String.join ((writtenRows s (decodedRows s o records)).map (· ++ "\n")) ∧
          (outcome.failure = none ↔ (∀ text ∈ records, ∃ rows, Decode.record s o text = .ok rows) ∧
            ∀ row ∈ decodedRows s o records, ∃ line, Encode.row s row = .ok line) ∧
          (outcome.failure = some .panic ↔ ∃ text ∈ records, Decode.record s o text = .error .panic) ∧
          (outcome.failure ≠ some .panic →
            decodedRows s o records = records.flatMap fun text => (Decode.record s o text).toOption.getD []) ∧
          ∀ e, outcome.failure = some e →
            e = .panic ∨ ∃ failed, 0 < failed ∧ e = .recordsFailed failed records.length := by
  refine ⟨Decode.record_faults s o, Encode.row_contained s, ?_⟩
  intro files options verbose input schema text hoptions hread hschema records outcome
  have hscan := Files.scan_read hread
  have hrun : outcome = normalizeRecords s o records := by
    simp only [outcome, run, hoptions, normalize, hschema, hscan]
    rfl
  rw [hrun, normalize_outcome]
  obtain ⟨hnone, hpanic, hcause⟩ := failure_cases s o records
  refine ⟨rfl, hnone, hpanic, ?_, hcause⟩
  intro hcalm
  apply decoded_rows_calm
  exact fun text htext hpanics => hcalm (hpanic.mpr ⟨text, htext, hpanics⟩)

/-- A record that fails, a blank line, and a record after them. -/
theorem normalize_complete_skips :
    let s : Schema := ⟨[⟨"a", .long, true⟩], rfl⟩
    let files := (Files.save (fun _ => .missing) "schema.json" s.compactText).save "in.jsonl"
      "\x7b\"a\":\"x\"\x7d\n\n\x7b\"a\":1\x7d\n"
    let outcome := run files ⟨none, false, .normalize "in.jsonl" (some "schema.json")⟩
    schemaFor files {} "in.jsonl" (some "schema.json") = .ok s ∧ outcome.output = "\x7b\"a\":1\x7d\n" ∧
      outcome.failure ≠ none := by
  intro s files outcome
  have hschema : schemaFor files {} "in.jsonl" (some "schema.json") = .ok s :=
    (save_schema (by decide)).trans (load_compact _ _ ⟨trivial, trivial⟩ (by decide))
  have hrecords : Source.recordsOfText "\x7b\"a\":\"x\"\x7d\n\n\x7b\"a\":1\x7d\n" =
      ["\x7b\"a\":\"x\"\x7d", "\x7b\"a\":1\x7d"] := by decide +kernel
  have hread : files.readText "in.jsonl" = .ok "\x7b\"a\":\"x\"\x7d\n\n\x7b\"a\":1\x7d\n" :=
    Files.save_read ((Files.save (fun _ => .missing) "schema.json" s.compactText)) "in.jsonl" _
  have hlines : writtenRows s (decodedRows s {} ["\x7b\"a\":\"x\"\x7d", "\x7b\"a\":1\x7d"]) =
      ["\x7b\"a\":1\x7d"] := by decide +kernel
  obtain ⟨houtput, hsuccess, -, -, -⟩ := (normalize_complete s {}).2.2 files none false "in.jsonl" (some "schema.json") _
    rfl hread hschema
  rw [hrecords] at houtput hsuccess
  rw [hlines] at houtput
  refine ⟨hschema, houtput, ?_⟩
  intro hnone
  obtain ⟨rows, hrows⟩ := (hsuccess.mp hnone).1 _ List.mem_cons_self
  have hfails : (Decode.record s {} "\x7b\"a\":\"x\"\x7d").isOk = false := by decide +kernel
  rw [hrows] at hfails
  cases hfails

/-- A record that panics, and one after it that could be read and written. -/
theorem panic_stops_normalize :
    let records := ["\x7b\"d\":1e2147483647\x7d", "\x7b\"d\":1\x7d"]
    let files := (Files.save (fun _ => .missing) "schema.json" tenths.compactText).save "in.jsonl"
      (String.join (records.map (· ++ "\n")))
    let outcome := run files ⟨none, false, .normalize "in.jsonl" (some "schema.json")⟩
    Source.scan files (.lines "in.jsonl") = .ok records ∧
      recordLines tenths {} "\x7b\"d\":1\x7d" = ["\x7b\"d\":1.0\x7d"] ∧
      outcome.output = "" ∧ outcome.failure = some .panic := by
  intro records files outcome
  have hrecords : Source.recordsOfText (String.join (records.map (· ++ "\n"))) = records := by decide +kernel
  have hrun : outcome = normalizeRecords tenths {} records := by
    rw [← hrecords]
    exact normalize_saved rfl (load_compact _ _ ⟨⟨by decide, by decide⟩, trivial⟩ (by decide)) (by decide) nofun
  have hpanics : panics (Decode.record tenths {}) "\x7b\"d\":1e2147483647\x7d" = true := by decide +kernel
  have hlines : writtenRows tenths (decodedRows tenths {} records) = [] := by
    rw [decodedRows, reached, List.takeWhile_cons, hpanics]
    rfl
  rw [hrun, normalize_outcome, hlines, failureOf, List.any_cons, hpanics]
  refine ⟨?_, by decide +kernel, rfl, rfl⟩
  rw [Files.scan_saved, hrecords]

end Command

end TypedRecords
