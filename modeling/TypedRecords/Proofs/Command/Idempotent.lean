import TypedRecords.Proofs.Command.Normalize
import TypedRecords.Proofs.Json.Printable
import TypedRecords.Proofs.Row.Realless
/-!
# Normalizing again

The output of `normalize` is a file of records. Without floating point numbers in the schema it is its own normal form,
unless a line has an object that begins with the key of a boxed number: such a line is lost or kept as text.
-/

namespace TypedRecords

open Json (Boxless)
open Text (IsLine trim)

def writtenTokens (s : Schema) (rows : List Row) : List Json := rows.filterMap fun row => (Encode.object s row).toOption

section Lists

variable {α : Type} {f : α → List α} {xs : List α}

theorem flat_map_length_le (h : ∀ x ∈ xs, (f x).length ≤ 1) : (xs.flatMap f).length ≤ xs.length := by
  induction xs with
  | nil => exact le_refl 0
  | cons x xs ih =>
    rw [List.forall_mem_cons] at h
    have := ih h.2
    rw [List.flatMap_cons, List.length_append, List.length_cons]
    omega

/-- Where each element gives one at most, all come back only if each gives itself. -/
theorem flat_map_self_iff (h : ∀ x ∈ xs, (f x).length ≤ 1) : xs.flatMap f = xs ↔ ∀ x ∈ xs, f x = [x] := by
  induction xs with
  | nil => simp
  | cons x xs ih =>
    rw [List.forall_mem_cons] at h
    have hrest := flat_map_length_le h.2
    rw [List.flatMap_cons, List.forall_mem_cons, ← ih h.2]
    constructor
    · intro hself
      have hlength := congrArg List.length hself
      rw [List.length_append, List.length_cons] at hlength
      have hone : (f x).length = 1 := by omega
      obtain ⟨y, hy⟩ := List.length_eq_one_iff.mp hone
      rw [hy, List.singleton_append] at hself
      obtain ⟨rfl, htail⟩ := List.cons.inj hself
      exact ⟨hy, htail⟩
    · rintro ⟨hx, hself⟩
      rw [hx, hself, List.singleton_append]

/-- The same of the elements up to the first that gives something else. -/
theorem flat_map_front_iff {p : α → Bool} (h : ∀ x ∈ xs, (f x).length ≤ 1) (hp : ∀ x ∈ xs, f x = [x] → p x = true) :
    (xs.takeWhile p).flatMap f = xs ↔ ∀ x ∈ xs, f x = [x] := by
  constructor
  · intro hself
    have hfront : xs.takeWhile p <+: xs := List.takeWhile_prefix p
    have hmost := flat_map_length_le fun x hx => h x (hfront.subset hx)
    rw [hself] at hmost
    rw [hfront.eq_of_length_le hmost] at hself
    exact (flat_map_self_iff h).mp hself
  · intro hself
    rw [List.takeWhile_eq_self_iff.mpr fun x hx => hp x hx (hself x hx)]
    exact (flat_map_self_iff h).mpr hself

end Lists

theorem Source.records_of_lines {lines : List String} (h : ∀ line ∈ lines, IsLine line ∧ trim line.toList ≠ []) :
    Source.recordsOfText (String.join (lines.map (· ++ "\n"))) = lines := by
  rw [Source.recordsOfText, Text.lines_join fun line hline => (h line hline).1, List.filter_eq_self]
  intro line hline
  rw [Bool.not_eq_true', List.isEmpty_eq_false_iff]
  exact (h line hline).2

namespace Command

open DataType

variable {s : Schema} {o : Options} {records : List String} {token : Json} {row : Row} {rows : List Row}
  {tokens : List Json} {files : Files}

theorem written_compact (s : Schema) (rows : List Row) :
    writtenRows s rows = (writtenTokens s rows).map Json.compact := by
  rw [writtenRows, writtenTokens, List.map_filterMap]
  congr 1
  funext row
  rw [Encode.row]
  cases Encode.object s row <;> rfl

def IsPrinted (s : Schema) (o : Options) (token : Json) : Prop :=
  ∃ row, WellTyped o s.toType (.struct row) ∧ Encode.object s row = .ok token

theorem printed_tokens (hreal : Realless s.toType) (records : List String) :
    ∀ token ∈ writtenTokens s (decodedRows s o records), IsPrinted s o token := by
  intro token htoken
  obtain ⟨row, hrow, henc⟩ := mem_filter_map_ok.mp htoken
  obtain ⟨text, -, rows, hdecode, hrow⟩ := mem_decoded_rows hrow
  exact ⟨row, Decode.record_well_typed (Decode.scalars_realless hreal) hdecode row hrow, henc⟩

theorem IsPrinted.is_line (h : IsPrinted s o token) : IsLine token.compact ∧ trim token.compact.toList ≠ [] := by
  obtain ⟨row, hrow, henc⟩ := h
  have hread : Json.Read token := (Decode.row_back hrow henc).settled.imp fun _ _ => trivial
  obtain ⟨members, -, rfl⟩ := Encode.value_struct_inv henc
  exact ⟨Json.compact_is_line hread, Json.object_not_blank members⟩

theorem IsPrinted.same_row (h : IsPrinted s o token) (hreal : Realless s.toType) (hdepth : token.depth < 128)
    (hbox : Boxless token) :
    ∃ row, Decode.record s o token.compact = .ok [row] ∧ Encode.row s row = .ok token.compact := by
  obtain ⟨row, hrow, henc⟩ := h
  refine ⟨row, Decode.record_same hreal hrow henc hdepth hbox, ?_⟩
  rw [Encode.row, henc]
  rfl

theorem IsPrinted.boxed_lines (h : IsPrinted s o token) (hdepth : token.depth < 128) (hbox : ¬ Boxless token) :
    (recordLines s o token.compact).length ≤ 1 ∧ token.compact ∉ recordLines s o token.compact := by
  obtain ⟨row, hrow, henc⟩ := h
  rcases Decode.record_boxed hrow henc hdepth hbox with hcorrupt | ⟨e, he⟩
  · rw [recordLines, hcorrupt]
    constructor
    · exact (List.length_filterMap_le _ _).trans (Decode.corrupt_rows_length s o _)
    · intro hmem
      obtain ⟨other, hother, hline⟩ := mem_filter_map_ok.mp hmem
      exact Decode.corrupt_row_text hother hline
  · rw [recordLines, he]
    exact ⟨Nat.zero_le 1, List.not_mem_nil⟩

theorem IsPrinted.record_lines_iff (h : IsPrinted s o token) (hreal : Realless s.toType) (hdepth : token.depth < 128) :
    (recordLines s o token.compact).length ≤ 1 ∧
      (recordLines s o token.compact = [token.compact] ↔ Boxless token) := by
  by_cases hbox : Boxless token
  · obtain ⟨row, hrecord, hline⟩ := h.same_row hreal hdepth hbox
    have hlines : recordLines s o token.compact = [token.compact] := by
      rw [recordLines, hrecord]
      simp [writtenRows, Except.toOption, hline]
    rw [hlines]
    exact ⟨le_refl 1, iff_of_true rfl hbox⟩
  · obtain ⟨hlength, hother⟩ := h.boxed_lines hdepth hbox
    refine ⟨hlength, iff_of_false ?_ hbox⟩
    intro hlines
    rw [hlines] at hother
    exact hother (List.mem_singleton_self _)

theorem record_lines_calm {line : String} (h : recordLines s o line = [line]) :
    (!RowStream.panics (Decode.record s o) line) = true := by
  rw [Bool.not_eq_true', Bool.eq_false_iff, Ne, RowStream.panics_iff]
  intro hpanic
  rw [recordLines, hpanic] at h
  cases h

theorem boxless_lines_succeed (hreal : Realless s.toType) (hprinted : ∀ token ∈ tokens, IsPrinted s o token)
    (hdepth : ∀ token ∈ tokens, token.depth < 128) (hbox : ∀ token ∈ tokens, Boxless token) :
    (∀ line ∈ tokens.map Json.compact, ∃ rows, Decode.record s o line = .ok rows) ∧
      ∀ row ∈ decodedRows s o (tokens.map Json.compact), ∃ line, Encode.row s row = .ok line := by
  have hread : ∀ line ∈ tokens.map Json.compact,
      ∃ row, Decode.record s o line = .ok [row] ∧ Encode.row s row = .ok line := by
    intro line hline
    obtain ⟨token, htoken, rfl⟩ := List.mem_map.mp hline
    exact (hprinted token htoken).same_row hreal (hdepth token htoken) (hbox token htoken)
  constructor
  · intro line hline
    obtain ⟨row, hrecord, -⟩ := hread line hline
    exact ⟨[row], hrecord⟩
  · intro row hrow
    obtain ⟨line, hline, rows, hrecord, hrow⟩ := mem_decoded_rows hrow
    obtain ⟨row', hrecord', henc⟩ := hread line hline
    rw [hrecord] at hrecord'
    rw [Except.ok.inj hrecord'] at hrow
    rw [List.mem_singleton.mp hrow]
    exact ⟨line, henc⟩

/-- The lines of some tokens are normalized to themselves exactly when no token has a box. -/
theorem same_output_iff (hreal : Realless s.toType) (hprinted : ∀ token ∈ tokens, IsPrinted s o token)
    (hdepth : ∀ token ∈ tokens, token.depth < 128) :
    ((normalizeRecords s o (tokens.map Json.compact)).failure = none ∧
      (normalizeRecords s o (tokens.map Json.compact)).output =
        String.join ((tokens.map Json.compact).map (· ++ "\n"))) ↔ ∀ token ∈ tokens, Boxless token := by
  have hlines {tokens : List Json} (hprinted : ∀ token ∈ tokens, IsPrinted s o token) :
      ∀ line ∈ tokens.map Json.compact, IsLine line := by
    intro line hline
    obtain ⟨token, htoken, rfl⟩ := List.mem_map.mp hline
    exact (hprinted token htoken).is_line.1
  have hself : writtenRows s (decodedRows s o (tokens.map Json.compact)) = tokens.map Json.compact ↔
      ∀ token ∈ tokens, Boxless token := by
    rw [written_records, RowStream.reached, flat_map_front_iff, List.forall_mem_map]
    · exact forall₂_congr fun token htoken => ((hprinted token htoken).record_lines_iff hreal (hdepth token htoken)).2
    · rw [List.forall_mem_map]
      exact fun token htoken => ((hprinted token htoken).record_lines_iff hreal (hdepth token htoken)).1
    · exact fun line _ => record_lines_calm
  obtain ⟨hsuccess, -, -⟩ := failure_cases s o (tokens.map Json.compact)
  rw [normalize_outcome, ← hself]
  constructor
  · rintro ⟨-, houtput⟩
    have hlast := congrArg Text.lines houtput
    rwa [Outcome.output, Text.lines_join, Text.lines_join (hlines hprinted)] at hlast
    rw [written_compact]
    exact hlines (printed_tokens hreal _)
  · intro hsame
    constructor
    · exact hsuccess.mpr (boxless_lines_succeed hreal hprinted hdepth (hself.mp hsame))
    · rw [Outcome.output, hsame]

section Runs

variable {input schema path text : String} {options : Option String} {verbose : Bool}

/-- The tokens of the lines that are printed for a file. There are none if the file cannot be read. -/
def printedTokens (files : Files) (s : Schema) (o : Options) (input : String) : List Json :=
  writtenTokens s (decodedRows s o ((Source.scan files (.lines input)).toOption.getD []))

theorem normalize_lines (hoptions : loadOptions files options = .ok o) (hschema : loadSchema files schema = .ok s) :
    (run files ⟨options, verbose, .normalize input (some schema)⟩).lines =
      (printedTokens files s o input).map Json.compact := by
  rw [printedTokens, ← written_compact]
  cases hscan : Source.scan files (.lines input) with
  | error e =>
    simp only [run, hoptions, normalize, schemaFor, hschema, hscan]
    rfl
  | ok records =>
    have hlines : (normalizeRecords s o records).lines = writtenRows s (decodedRows s o records) := by
      rw [normalize_outcome]
    simp only [run, hoptions, normalize, schemaFor, hschema, hscan]
    exact hlines

/-- Under a schema without floating point numbers, with no line that nests too deep to be read, `normalize` prints its
own output again and fails on no record of it, exactly when no object in it begins with the key of a boxed number. -/
theorem normalize_again_iff (hoptions : loadOptions files options = .ok o)
    (hschema : loadSchema files schema = .ok s) (hfloat : ¬ Part .float s.toType) (hdouble : ¬ Part .double s.toType)
    (hdepth : ∀ token ∈ printedTokens files s o input, token.depth < 128) (hpath : schema ≠ path)
    (hother : ∀ p ∈ options, p ≠ path) :
    let first := run files ⟨options, verbose, .normalize input (some schema)⟩
    let again := run (files.save path first.output) ⟨options, verbose, .normalize path (some schema)⟩
    first.lines = (printedTokens files s o input).map Json.compact ∧
      (again.failure = none ∧ again.output = first.output ↔
        ∀ token ∈ printedTokens files s o input, Boxless token) := by
  intro first again
  have hreal : Realless s.toType := ⟨hfloat, hdouble⟩
  have hlines : first.lines = (printedTokens files s o input).map Json.compact := normalize_lines hoptions hschema
  have hprinted : ∀ token ∈ printedTokens files s o input, IsPrinted s o token := printed_tokens hreal _
  have hrecords : Source.recordsOfText first.output = (printedTokens files s o input).map Json.compact := by
    rw [Outcome.output, hlines]
    apply Source.records_of_lines
    rw [List.forall_mem_map]
    exact fun token htoken => (hprinted token htoken).is_line
  have hagain : again = normalizeRecords s o ((printedTokens files s o input).map Json.compact) := by
    rw [← hrecords]
    exact normalize_saved hoptions hschema hpath hother
  have houtput : first.output = String.join (((printedTokens files s o input).map Json.compact).map (· ++ "\n")) := by
    rw [Outcome.output, hlines]
  rw [hagain, houtput, hlines]
  exact ⟨rfl, same_output_iff hreal hprinted hdepth⟩

theorem records_of_object {members : List (String × Json)} (h : Json.Read (.obj members)) :
    Source.recordsOfText ((Json.obj members).compact ++ "\n") = [(Json.obj members).compact] := by
  have hline : ∀ line ∈ [(Json.obj members).compact], IsLine line ∧ trim line.toList ≠ [] := by
    rw [List.forall_mem_singleton]
    exact ⟨Json.compact_is_line h, Json.object_not_blank members⟩
  have hrecords := Source.records_of_lines hline
  rwa [List.map_singleton, String.join_cons, String.join_nil, String.append_empty] at hrecords

theorem printed_object {members : List (String × Json)} (h : Json.Read (.obj members))
    (hrecord : Decode.record s o (Json.obj members).compact = .ok rows) :
    printedTokens (files.save path ((Json.obj members).compact ++ "\n")) s o path = writtenTokens s rows := by
  have hrows : decodedRows s o [(Json.obj members).compact] = rows := decoded_rows_single hrecord
  rw [printedTokens, Files.scan_saved, records_of_object h]
  exact congrArg _ hrows

/-- One integer column. -/
theorem normalize_again_integer :
    let s : Schema := ⟨[⟨"a", .long, true⟩], rfl⟩
    let token : Json := .obj [("a", .num "1")]
    let files := (Files.save (fun _ => .missing) "schema.json" s.compactText).save "in.jsonl" (token.compact ++ "\n")
    let first := run files ⟨none, false, .normalize "in.jsonl" (some "schema.json")⟩
    let again := run (files.save "out.jsonl" first.output) ⟨none, false, .normalize "out.jsonl" (some "schema.json")⟩
    printedTokens files s {} "in.jsonl" = [token] ∧ again.failure = none ∧ again.output = first.output := by
  intro s token files first again
  have hformed (p : List String → Prop) (hp : p ["a"]) : Json.Formed p token :=
    .obj hp (by simpa using .num ⟨false, ['1'], [], none, by decide, by decide, rfl, by simp⟩)
  have htext := Json.of_text_compact (hformed _ (by decide)) (hformed _ (by decide)) (by decide)
  have hrecord : Decode.record s {} token.compact = .ok [[.long 1]] := by
    rw [Decode.record, htext]
    rfl
  have hprinted : printedTokens files s {} "in.jsonl" = [token] := printed_object (hformed _ trivial) hrecord
  have hschema : loadSchema files "schema.json" = .ok s :=
    (save_schema (by decide)).trans (load_compact _ _ ⟨trivial, trivial⟩ (by decide))
  have hreal : Realless s.toType :=
    realless_struct (List.forall_mem_singleton.mpr (realless_scalar trivial (by decide) (by decide)))
  have hiff : again.failure = none ∧ again.output = first.output ↔
      ∀ token ∈ printedTokens files s {} "in.jsonl", Boxless token := by
    refine (normalize_again_iff rfl hschema hreal.1 hreal.2 ?_ (by decide) ?_).2
    · rw [hprinted]
      decide
    · intro p hp
      cases hp
  rw [hprinted, List.forall_mem_singleton] at hiff
  exact ⟨hprinted, hiff.mpr (hformed _ (by decide))⟩

/-- A string column that is named like the box of a number. -/
theorem boxed_line_lost :
    let s : Schema := ⟨[⟨Json.numberKey, .string, true⟩], rfl⟩
    let record : Json := .obj [("x", .num "1"), (Json.numberKey, .str "12")]
    let line : Json := .obj [(Json.numberKey, .str "12")]
    let files := (Files.save (fun _ => .missing) "schema.json" s.compactText).save "in.jsonl" (record.compact ++ "\n")
    let first := run files ⟨none, false, .normalize "in.jsonl" (some "schema.json")⟩
    let again := run (files.save "out.jsonl" first.output) ⟨none, false, .normalize "out.jsonl" (some "schema.json")⟩
    loadSchema files "schema.json" = .ok s ∧ ¬ Part .float s.toType ∧ ¬ Part .double s.toType ∧
      first.output = line.compact ++ "\n" ∧ line.depth < 128 ∧ again.output = "" := by
  intro s record line files first again
  have hreal : Realless s.toType :=
    realless_struct (List.forall_mem_singleton.mpr (realless_scalar trivial (by decide) (by decide)))
  have hschema : loadSchema files "schema.json" = .ok s :=
    (save_schema (by decide)).trans (load_compact _ _ ⟨trivial, trivial⟩ (by decide))
  have hformed (p : List String → Prop) (hp : p ["x", Json.numberKey]) : Json.Formed p record := by
    refine .obj hp ?_
    simpa using ⟨.num ⟨false, ['1'], [], none, by decide, by decide, rfl, by simp⟩, .str "12"⟩
  have hread : Json.Read line := .obj trivial (by simpa using .str "12")
  have htext := Json.of_text_compact (hformed _ (by decide)) (hformed _ (by decide)) (by decide)
  have hrecord : Decode.record s {} record.compact = .ok [[.string "12"]] := by
    rw [Decode.record, htext]
    rfl
  have hprinted : printedTokens files s {} "in.jsonl" = [line] := printed_object (hformed _ trivial) hrecord
  have hlines : first.lines = [line.compact] := by
    rw [← List.map_singleton, ← hprinted]
    exact normalize_lines rfl hschema
  have hfirst : first.output = line.compact ++ "\n" := by
    rw [Outcome.output, hlines, List.map_singleton, String.join_cons, String.join_nil, String.append_empty]
  -- The line is the box of a number, and a number is no row.
  have hboxed : Json.ofText? line.compact = some (.num "12") := by cbv
  have hlost : Decode.record s {} line.compact = .ok [] := by
    rw [Decode.record, hboxed]
    rfl
  have hagain : again = normalizeRecords s {} [line.compact] := by
    rw [← records_of_object hread, ← hfirst]
    apply normalize_saved rfl hschema (by decide)
    intro p hp
    cases hp
  have hnone : decodedRows s {} [line.compact] = [] := decoded_rows_single hlost
  have hempty : again.output = "" := by
    rw [hagain, normalize_outcome, hnone]
    rfl
  exact ⟨hschema, hreal.1, hreal.2, hfirst, by decide, hempty⟩

end Runs

end Command

end TypedRecords
