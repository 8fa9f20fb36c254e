import TypedRecords.Proofs.Columnar.Cells
import TypedRecords.Proofs.Columnar.Joined
/-!
# Batches hold their rows

A batch that can be made has the columns of its schema and a row for each row, with or without fields, and the cell in a
row's column is the row's value. Its cells are read from the text of the rows, which is read to its end.
-/

namespace TypedRecords.Batch

variable {s : Schema} {row cells : Row} {rows : List Row} {columns : List Column} {token : Json} {tokens : List Json}
  {b : Batch}

def cell? (b : Batch) (i j : Nat) : Option Value := b.cells[i]?.bind (·[j]?)

section Rows

theorem row_length (h : Conforms s.toType (.struct row)) : row.length = s.size := by
  cases h with
  | struct hlen _ => exact hlen

theorem of_schema_type (hcolumns : ColumnType.ofSchema s = .ok columns) :
    ColumnType.ofType s.toType = .ok (.struct columns) := by
  rw [Schema.toType, ColumnType.ofType, ← ColumnType.ofSchema, hcolumns]
  rfl

theorem row_cells (h : Conforms s.toType (.struct row)) (hcolumns : ColumnType.ofSchema s = .ok columns)
    (henc : Encode.object s row = .ok token) (hcells : rowCells columns token = .ok cells) :
    cells = row.map Value.quiet := by
  obtain ⟨members, -, rfl⟩ := Encode.value_struct_inv henc
  have hcell : cell (.struct columns) false (.obj members) = .ok (.struct cells) := by
    rw [cell_struct, ← rowCells, hcells]
    rfl
  have hvalue := value_cell h s.distinct (of_schema_type hcolumns) henc hcell
  rw [Value.quiet_struct] at hvalue
  exact Value.struct.inj hvalue

theorem stored_row_cells (h : Stored s.toType (.struct row)) (hcolumns : ColumnType.ofSchema s = .ok columns)
    (henc : Encode.object s row = .ok token) : rowCells columns token = .ok (row.map Value.quiet) := by
  obtain ⟨members, -, rfl⟩ := Encode.value_struct_inv henc
  have hcell := stored_cell (b := false) h s.distinct (of_schema_type hcolumns) henc (by rintro ⟨⟩)
  rw [cell_struct, Value.quiet_struct] at hcell
  obtain ⟨cells, hcells, hsame⟩ := map_ok_inv hcell
  rw [rowCells, hcells, ← Value.struct.inj hsame]

end Rows

section Texts

theorem tokens_read (h : rows.mapM (Encode.object s) = .ok tokens) : ∀ token ∈ tokens, Json.Read token := by
  intro token htoken
  obtain ⟨row, -, hrow⟩ := map_m_mem h token htoken
  exact Encode.value_read hrow

theorem texts_read {texts : List String} (h : rows.mapM (Encode.row s) = .ok texts) : ∃ values,
    readValues rows.length (String.join (texts.map (· ++ "\n"))).toList = .ok (values, []) ∧
      values.length = rows.length := by
  have htexts : (rows.mapM (Encode.object s)).map (List.map Json.compact) = .ok texts := by
    rw [← map_m_map]
    exact h
  obtain ⟨tokens, htokens, rfl⟩ := map_ok_inv htexts
  have hcount := map_m_length htokens
  rw [← hcount]
  exact ⟨tokens, read_values_lines (tokens_read htokens), rfl⟩

end Texts

section Transposed

variable {count i : Nat}

theorem transpose_length (count : Nat) (rows : List Row) : (transpose count rows).length = count := by
  rw [transpose, List.length_map, List.length_range]

theorem transpose_column (h : i < count) (rows : List Row) :
    (transpose count rows)[i]? = some (rows.map fun row => row.getD i .null) := by
  rw [transpose, List.getElem?_map, List.getElem?_range h, Option.map_some]

end Transposed

section Shapes

/-- With fields and rows, the cells are read from the tokens of the rows. -/
theorem of_rows_some (hcolumns : ColumnType.ofSchema s = .ok columns) (hsome : rows ≠ []) (hfields : s.isEmpty = false) :
    ofRows s rows = (rows.mapM (Encode.object s)).bind fun tokens =>
      if storableAll columns then (tokens.mapM (rowCells columns)).map
        fun cells => ⟨rows.length, columns, transpose columns.length cells⟩
      else .error .columns := by
  have hempty : rows.isEmpty = false := List.isEmpty_eq_false_iff.mpr hsome
  have htexts : rows.mapM (Encode.row s) = (rows.mapM (Encode.object s)).map (List.map Json.compact) :=
    map_m_map (Encode.object s) Json.compact rows
  rw [ofRows, hcolumns, hempty, hfields, htexts]
  cases htokens : rows.mapM (Encode.object s) with
  | error e => rfl
  | ok tokens =>
    have hcount := map_m_length htokens
    have hne : tokens ≠ [] := by
      rintro rfl
      exact hsome (List.length_eq_zero_iff.mp hcount.symm)
    rw [← hcount]
    exact of_text_lines (tokens_read htokens) hne

/-- Of the three ways to a batch, only the last one reads any cells. -/
theorem of_rows_inv (h : ofRows s rows = .ok b) : ColumnType.ofSchema s = .ok b.columns ∧ b.rows = rows.length ∧
    ((rows = [] ∨ s.size = 0) ∧ b.cells = transpose s.size [] ∨
      ∃ tokens cells, rows.mapM (Encode.object s) = .ok tokens ∧ tokens.mapM (rowCells b.columns) = .ok cells ∧
        b.cells = transpose s.size cells) := by
  obtain ⟨columns, hcolumns, hbatch⟩ := bind_ok_inv h
  have hwidth : columns.length = s.size := ColumnType.of_fields_length hcolumns
  by_cases hnone : rows = []
  · subst hnone
    cases hbatch
    refine ⟨hcolumns, rfl, Or.inl ⟨Or.inl rfl, ?_⟩⟩
    rw [empty, hwidth]
  rw [List.isEmpty_eq_false_iff.mpr hnone] at hbatch
  cases hfields : s.isEmpty with
  | true =>
    rw [hfields] at hbatch
    cases hbatch
    have hsize : s.size = 0 := List.length_eq_zero_iff.mpr (List.isEmpty_iff.mp hfields)
    refine ⟨hcolumns, rfl, Or.inl ⟨Or.inr hsize, ?_⟩⟩
    rw [hsize]
    rfl
  | false =>
    rw [of_rows_some hcolumns hnone hfields] at h
    obtain ⟨tokens, htokens, h⟩ := bind_ok_inv h
    split at h
    · obtain ⟨cells, hcells, rfl⟩ := map_ok_inv h
      refine ⟨hcolumns, rfl, Or.inr ⟨tokens, cells, htokens, hcells, ?_⟩⟩
      rw [hwidth]
    · contradiction

theorem of_rows_cells (hrows : ∀ row ∈ rows, Conforms s.toType (.struct row)) (h : ofRows s rows = .ok b) :
    b.cells = transpose s.size (rows.map (·.map Value.quiet)) := by
  obtain ⟨hcolumns, -, ⟨hshape, hcells⟩ | ⟨tokens, cells, htokens, hread, hcells⟩⟩ := of_rows_inv h
  · rw [hcells]
    rcases hshape with rfl | hsize
    · rfl
    · rw [hsize]
      rfl
  · have hrow : ∀ row ∈ rows, ∀ token cells, Encode.object s row = .ok token →
        rowCells b.columns token = .ok cells → cells = row.map Value.quiet :=
      fun row hmem _ _ htoken hread => row_cells (hrows row hmem) hcolumns htoken hread
    rw [hcells, map_m_through hrow htokens hread]

theorem of_rows_exists (hcolumns : DataType.EveryField ColumnType.HasColumn s.fields)
    (hrows : ∀ row ∈ rows, Stored s.toType (.struct row)) : ∃ b, ofRows s rows = .ok b := by
  obtain ⟨columns, hcolumns, hstorable⟩ := ColumnType.of_fields_exists s.fields hcolumns
  have hcolumns : ColumnType.ofSchema s = .ok columns := hcolumns
  by_cases hnone : rows = []
  · subst hnone
    exact ⟨empty columns, by rw [ofRows, hcolumns]; rfl⟩
  cases hfields : s.isEmpty with
  | true =>
    refine ⟨⟨rows.length, columns, []⟩, ?_⟩
    rw [ofRows, hcolumns, List.isEmpty_eq_false_iff.mpr hnone, hfields]
    rfl
  | false =>
    have htoken : ∀ row ∈ rows, ∃ token, Encode.object s row = .ok token := fun row hrow => stored_token (hrows row hrow)
    obtain ⟨tokens, htokens⟩ := map_m_ok_iff.mpr htoken
    have hcells := map_m_back (fun row hrow _ htoken => stored_row_cells (hrows row hrow) hcolumns htoken) htokens
    rw [of_rows_some hcolumns hnone hfields, htokens, Except.bind, if_pos hstorable, hcells]
    exact ⟨_, rfl⟩

end Shapes

/-- The rows are the rows of the batch, and their values its cells. All values that are no numbers count as one. -/
structure Holds (s : Schema) (rows : List Row) (b : Batch) : Prop where
  count : b.rows = rows.length
  columns : ColumnType.ofSchema s = .ok b.columns
  width : b.cells.length = s.size
  height : ∀ column ∈ b.cells, column.length = rows.length
  cells : ∀ i < s.size, ∀ j row, rows[j]? = some row →
    ∃ v, row[i]? = some v ∧ b.cell? i j = some v.quiet ∧ (b.cell? i j = some .null ↔ v = .null)

theorem holds_of_rows (hrows : ∀ row ∈ rows, Conforms s.toType (.struct row)) (h : ofRows s rows = .ok b) :
    Holds s rows b := by
  obtain ⟨hcolumns, hcount, -⟩ := of_rows_inv h
  have hcells := of_rows_cells hrows h
  refine ⟨hcount, hcolumns, ?_, ?_, ?_⟩
  · rw [hcells, transpose_length]
  · rw [hcells, transpose, List.forall_mem_map]
    intro i hi
    rw [List.length_map, List.length_map]
  · intro i hi j row hrow
    have hlen := row_length (hrows row (List.mem_of_getElem? hrow))
    obtain ⟨v, hv⟩ : ∃ v, row[i]? = some v := ⟨_, List.getElem?_eq_getElem (hlen ▸ hi)⟩
    have hcell : b.cell? i j = some v.quiet := by
      rw [cell?, hcells, transpose_column hi, Option.bind_some, List.getElem?_map, List.getElem?_map, hrow,
        Option.map_some, Option.map_some, List.getD_eq_getElem?_getD, List.getElem?_map, hv]
      rfl
    refine ⟨v, hv, hcell, ?_⟩
    rw [hcell, Option.some.injEq, Value.quiet_eq_null_iff]

/-- A batch of well typed rows holds exactly these rows. It is made from the text of the rows, which is read to its end as
one value for each row; it can be made if each field has a column and the rows keep to what columns take. -/
theorem batch_holds_rows (hrows : ∀ row ∈ rows, Conforms s.toType (.struct row)) :
    (∀ b, ofRows s rows = .ok b → Holds s rows b) ∧
    (∀ texts, rows.mapM (Encode.row s) = .ok texts → ∃ values,
      readValues rows.length (String.join (texts.map (· ++ "\n"))).toList = .ok (values, []) ∧
        values.length = rows.length) ∧
    (DataType.EveryField ColumnType.HasColumn s.fields → (∀ row ∈ rows, Stored s.toType (.struct row)) →
      ∃ b, ofRows s rows = .ok b) := by
  refine ⟨?_, ?_, ?_⟩
  · intro b hb
    exact holds_of_rows hrows hb
  · intro texts htexts
    exact texts_read htexts
  · intro hcolumns hstored
    exact of_rows_exists hcolumns hstored

/-- Zeros in front of a decimal's digits, a value that is no number and has bits of its own, a key that repeats, a null
in a struct, and a row of nulls. -/
theorem batch_holds_rows_nested :
    let s : Schema := ⟨[⟨"amount", .decimal 4 3, true⟩, ⟨"tags", .array .double true, true⟩,
      ⟨"dates", .map .date true, true⟩, ⟨"place", .struct [⟨"x", .long, true⟩], true⟩], by decide⟩
    let amount : Decimal := ⟨-5, 4, 3, by decide, by decide, by decide, by decide⟩
    let row : Row := [.decimal amount, .array [.double ⟨0x7ff8000000000001#64⟩, .null],
      .map [("k", .date 0), ("k", .null)], .struct [.null]]
    let rows : List Row := [row, [.null, .null, .null, .null]]
    (∀ row ∈ rows, Conforms s.toType (.struct row)) ∧ ∃ b, ofRows s rows = .ok b ∧ Holds s rows b ∧
      b.cell? 0 0 = some (.decimal amount) ∧ b.cell? 1 0 = some (.array [.double Floating.nan, .null]) ∧
      b.cell? 2 0 = some (.map [("k", .date 0), ("k", .null)]) ∧ b.cell? 3 0 = some (.struct [.null]) ∧
      b.cell? 3 1 = some .null := by
  intro s amount row rows
  have hamount : Stored (.decimal 4 3) (.decimal amount) := .scalar trivial rfl (.decimal amount) trivial
  have htags : Stored (.array .double true) (.array [.double ⟨0x7ff8000000000001#64⟩, .null]) := by
    refine .array ?_ fun _ _ _ => rfl
    simpa using ⟨.scalar trivial rfl (.double _) trivial, .null _⟩
  have hdates : Stored (.map .date true) (.map [("k", .date 0), ("k", .null)]) := by
    have hyear : Calendar.FourDigitYear 0 := ⟨by decide, by decide, by decide, by decide⟩
    refine .map ?_ fun _ _ _ => rfl
    simpa using ⟨.scalar trivial rfl (.date 0) hyear, .null _⟩
  have hplace : Stored (.struct [⟨"x", .long, true⟩]) (.struct [.null]) := by
    refine .struct rfl (List.forall_mem_singleton.mpr (.null _)) ?_
    exact List.forall_mem_singleton.mpr fun _ => rfl
  have hrow : Stored s.toType (.struct row) := by
    refine .struct rfl ?_ ?_
    · simpa [s, row] using ⟨hamount, htags, hdates, hplace⟩
    · simp [s, row]
  have hnulls : Stored s.toType (.struct [.null, .null, .null, .null]) := by
    refine .struct rfl ?_ ?_
    · simpa [s] using ⟨.null _, .null _, .null _, .null _⟩
    · simp [s]
  have hstored : ∀ row ∈ rows, Stored s.toType (.struct row) :=
    List.forall_mem_cons.mpr ⟨hrow, List.forall_mem_singleton.mpr hnulls⟩
  have hcolumns : DataType.EveryField ColumnType.HasColumn s.fields :=
    ⟨rfl, ⟨trivial, trivial⟩, ⟨trivial, trivial⟩, ⟨trivial, trivial, trivial⟩, trivial⟩
  have hrows : ∀ row ∈ rows, Conforms s.toType (.struct row) := fun row hrow => (hstored row hrow).conforms
  obtain ⟨hbatch, -, hexists⟩ := batch_holds_rows hrows
  obtain ⟨b, hb⟩ := hexists hcolumns hstored
  have hholds := hbatch b hb
  have hcell (i j : Nat) {row : Row} {v : Value} (hi : i < s.size) (hrow : rows[j]? = some row)
      (hv : row[i]? = some v) : b.cell? i j = some v.quiet := by
    obtain ⟨w, hw, hcell, -⟩ := hholds.cells i hi j row hrow
    rwa [← Option.some.inj (hw.symm.trans hv)]
  refine ⟨hrows, b, hb, hholds, ?_, ?_, ?_, ?_, ?_⟩
  · exact hcell 0 0 (by decide) rfl rfl
  · exact hcell 1 0 (by decide) rfl rfl
  · exact hcell 2 0 (by decide) rfl rfl
  · exact hcell 3 0 (by decide) rfl rfl
  · exact hcell 3 1 (by decide) rfl rfl

end TypedRecords.Batch
