import TypedRecords.Proofs.Calendar.Agreement
import TypedRecords.Proofs.Columnar.Columns
import TypedRecords.Proofs.Row.Encodable
import TypedRecords.Proofs.Row.Line
/-!
# Cells

A cell is read from the token that its value is written as, under the column that its type has. Whatever the type, if a
cell can be read then it is that value, with all values that are no numbers taken for one. It can be read where nulls are
declared and years have four digits.
-/

namespace TypedRecords

open Text (isDigit digitsValue intDigits)

/-- The values of a column: null, or a value of the column's kind, each part of its own type. A decimal has the
precision and the scale of its column. Entries of a map may share a key. -/
inductive Conforms : DataType → Value → Prop where
  | null (t) : Conforms t .null
  | named {n t v} : Conforms t v → Conforms (.alias n t) v
  | boolean (b) : Conforms .boolean (.boolean b)
  | byte (v) : Conforms .byte (.byte v)
  | short (v) : Conforms .short (.short v)
  | integer (v) : Conforms .integer (.integer v)
  | long (v) : Conforms .long (.long v)
  | float (x) : Conforms .float (.float x)
  | double (x) : Conforms .double (.double x)
  | decimal (d) : Conforms (.decimal d.precision d.scale) (.decimal d)
  | string (s) : Conforms .string (.string s)
  | binary (bytes) : Conforms .binary (.binary bytes)
  | date (days) : Conforms .date (.date days)
  | timestamp (micros) : Conforms .timestamp (.timestamp micros)
  | array {e n items} : (∀ v ∈ items, Conforms e v) → Conforms (.array e n) (.array items)
  | map {w n entries} : (∀ e ∈ entries, Conforms w e.2) → Conforms (.map w n) (.map entries)
  | struct {fs row} : row.length = fs.length → (∀ p ∈ fs.zip row, Conforms p.1.type p.2) →
      Conforms (.struct fs) (.struct row)

def Value.FourDigits : Value → Prop
  | .date days => Calendar.FourDigitYear days.toInt
  | .timestamp micros => Calendar.FourDigitYear (micros.toInt / Calendar.microsPerDay)
  | _ => True

/-- The values that a column takes: null stands only where it is declared, and years have four digits. -/
inductive Stored : DataType → Value → Prop where
  | null (t) : Stored t .null
  | named {n t v} : Stored t v → Stored (.alias n t) v
  | scalar {t v} : Decode.IsScalar t → v.isNull = false → Conforms t v → v.FourDigits → Stored t v
  | array {e n items} : (∀ v ∈ items, Stored e v) → (∀ v ∈ items, v = .null → n = true) →
      Stored (.array e n) (.array items)
  | map {w n entries} : (∀ e ∈ entries, Stored w e.2) → (∀ e ∈ entries, e.2 = .null → n = true) →
      Stored (.map w n) (.map entries)
  | struct {fs row} : row.length = fs.length → (∀ p ∈ fs.zip row, Stored p.1.type p.2) →
      (∀ p ∈ fs.zip row, p.2 = .null → p.1.nullable = true) → Stored (.struct fs) (.struct row)

theorem Stored.conforms {t : DataType} {v : Value} (h : Stored t v) : Conforms t v := by
  induction h with
  | null t => exact .null t
  | named _ ih => exact .named ih
  | scalar _ _ h _ => exact h
  | array _ _ ih => exact .array ih
  | map _ _ ih => exact .map ih
  | struct hlen _ _ ih => exact .struct hlen ih

namespace Batch

variable {t : DataType} {c : ColumnType} {b : Bool} {v token : Json} {x y : Value}

section Scalars

theorem real_cell {f : Format} (hf : f.Proper) (l : Layout) (x : Floating f) :
    realCell (Encode.real l x) = .ok x.quiet := by
  unfold Encode.real
  by_cases hx : x.isFinite = true
  · rw [if_pos hx, realCell, Decode.real, String.toList_ofList, Floating.number_finite_text hf l hx, Option.getD_some,
      Floating.quiet_finite hx]
  rw [if_neg hx, Floating.quiet]
  split
  · rfl
  · next hnan =>
    have hself := Decode.infinity_self hf hx hnan
    cases hsign : x.isNegative
    all_goals
      rw [hsign] at hself
      rw [← hself]
      rfl

theorem whole_cell {bits : Nat} {z : Int} (hbits : bits ≤ 64) (h : Fits bits z) :
    wholeCell bits (String.ofList (intDigits z)) = .ok z := by
  rw [wholeCell, long_int_digits (h.mono hbits), Option.bind_some, fitting_of_fits h]

/-- Zeros at the front aside, the digits of a decimal are no more than its precision. -/
theorem digits_kept {whole fraction : List Char} {p : Nat} (hall : (whole ++ fraction).all isDigit = true)
    (hlt : digitsValue (whole ++ fraction) < 10 ^ p) (hfraction : fraction.length ≤ p) :
    (whole.dropWhile (· == '0') ++ fraction).length ≤ p := by
  rw [← Text.digits_value_drop_zeros] at hlt
  cases hrest : whole.dropWhile (· == '0') with
  | nil => exact hfraction
  | cons c cs =>
    have hlead : c ≠ '0' := by
      have hhead := List.head?_dropWhile_not (· == '0') whole
      rw [hrest] at hhead
      simpa using hhead
    have hdigit : isDigit c = true := by
      have hmem : c ∈ whole := (List.dropWhile_suffix _).subset (hrest ▸ List.mem_cons_self)
      exact List.all_eq_true.mp hall c (List.mem_append_left _ hmem)
    rw [hrest, List.cons_append] at hlt
    have hmost := Text.pow_le_digits_value hdigit hlead (cs ++ fraction)
    have hpow := (Nat.pow_lt_pow_iff_right (by decide)).mp (hmost.trans_lt hlt)
    rw [List.cons_append, List.length_cons]
    exact hpow

/-- No digit of a decimal is cut off in a column of its own precision and scale. -/
theorem decimal_cell (d : Decimal) : decimalCell? d.precision d.scale d.text = some d := by
  obtain ⟨n, hchars, hexp, hsign, hvalue, hcount⟩ := d.text_numeral
  have hall : n.whole.all isDigit = true := n.whole_run.2
  have hdigits : columnDigits d.scale n.whole n.fraction = n.whole.dropWhile (· == '0') ++ n.fraction := by
    -- The text has as many places as the column, so none is cut off and none is missing.
    have hplaces : (if d.scale = 0 then n.fraction else n.fraction.take d.scale) = n.fraction := by
      rw [← hcount, List.take_length, ite_self]
    rw [columnDigits]
    simp only [hplaces]
    rw [hcount, Nat.sub_self, List.replicate_zero, List.append_nil]
  have hrun : (n.whole ++ n.fraction).all isDigit = true := by
    rw [List.all_append, hall, n.fraction_all]
    rfl
  have hlength : (n.whole.dropWhile (· == '0') ++ n.fraction).length ≤ d.precision :=
    digits_kept hrun (hvalue ▸ d.unscaled_lt) (hcount ▸ d.scale_le)
  have hkept : ('0' :: (n.whole.dropWhile (· == '0') ++ n.fraction)).all isDigit = true := by
    rw [List.all_eq_true] at hrun
    rw [List.all_cons, Bool.and_eq_true, List.all_eq_true]
    exact ⟨rfl, fun c hc => hrun c (((List.dropWhile_suffix _).sublist.append_right _).subset hc)⟩
  have hnat : Text.natOfDigits? ('0' :: (n.whole.dropWhile (· == '0') ++ n.fraction)) = some d.unscaled.natAbs := by
    rw [Text.nat_of_digits_some (List.cons_ne_nil _ _) hkept, ← hvalue, ← Text.digits_value_drop_zeros]
    exact congrArg some (Text.digits_value_zeros 1 _)
  have hunscaled : (if n.negative then -(d.unscaled.natAbs : Int) else d.unscaled.natAbs) = d.unscaled := by
    rw [hsign, Text.signed_nat_abs]
  rw [decimalCell?, Decimal.text, String.toList_ofList, ← hchars, Literal.split_sign_numeral n hexp]
  simp only [Literal.split_point_fraction hall, hdigits]
  rw [if_pos hlength, hnat, Option.bind_some, hunscaled]
  exact Decimal.of_unscaled_iff.mpr ⟨rfl, rfl, rfl⟩

theorem date_cell {days : Int} {text : String} {date : Calendar.CivilDate} (h : Encode.date days = .ok text)
    (hdate : Calendar.strictDate? text.toList = some date) : date.dayNumber = days := by
  obtain ⟨x, hfields, hend⟩ := Option.bind_eq_some_iff.mp hdate
  have hplain : Calendar.plainDate? text.toList = some date := by
    rw [Calendar.complete_iff.mp hend] at hfields
    exact Calendar.plain_date_iff.mpr (Calendar.strict_date_loose hfields)
  have hread := Decode.date_text h
  rw [Decode.date, Calendar.read_date_plain hplain] at hread
  exact Except.ok.inj hread

theorem timestamp_cell {micros m : Int} {text : String} (h : Encode.timestamp micros = .ok text)
    (hm : Calendar.strictTimestamp? text.toList = some m) : m = micros := by
  -- The reader of records tries the strict grammar first.
  have hread := Decode.timestamp_text h
  rw [Decode.timestamp, Calendar.readTimestamp?, hm] at hread
  exact Except.ok.inj hread

theorem date_column {days : Int32} {text : String} (h : Encode.date days.toInt = .ok text) :
    (∀ y, scalarCell .date32 (.str text) = .ok y → y = .date days) ∧
      (Calendar.FourDigitYear days.toInt → scalarCell .date32 (.str text) = .ok (.date days)) := by
  rw [scalarCell]
  constructor
  · intro y hcell
    split at hcell
    · next date hdate =>
      cases hcell
      rw [date_cell h hdate, Int32.ofInt_toInt]
    · cases hcell
  · intro hyear
    obtain ⟨written, hwritten, hdate⟩ := hyear.strict_date
    rw [Encode.date, hwritten] at h
    obtain rfl := Except.ok.inj h
    simp only [hdate, Calendar.CivilDate.day_number_of_day_number, Int32.ofInt_toInt]

theorem timestamp_column {micros : Int64} {text : String} (h : Encode.timestamp micros.toInt = .ok text) :
    (∀ y, scalarCell (.timestampMicros ColumnType.utcZone) (.str text) = .ok y → y = .timestamp micros) ∧
      (Calendar.FourDigitYear (micros.toInt / Calendar.microsPerDay) →
        scalarCell (.timestampMicros ColumnType.utcZone) (.str text) = .ok (.timestamp micros)) := by
  rw [scalarCell]
  constructor
  · intro y hcell
    split at hcell
    · next m hm =>
      cases hcell
      rw [timestamp_cell h hm, Int64.ofInt_toInt]
    · cases hcell
  · intro hyear
    obtain ⟨written, hwritten, hm⟩ := hyear.strict_timestamp
    rw [Encode.timestamp, hwritten] at h
    obtain rfl := Except.ok.inj h
    simp only [hm, Int64.ofInt_toInt]

theorem scalar_not_null (h : Encode.scalar t x = .ok token) : token ≠ .null := by
  rintro rfl
  have hreal {f : Format} (l : Layout) (x : Floating f) : Encode.real l x ≠ .null := by
    intro hnull
    have hpresent := Decode.real_present {} t l x
    rw [hnull] at hpresent
    contradiction
  unfold Encode.scalar at h
  split at h
  case h_7 | h_8 => exact hreal _ _ (Except.ok.inj h)
  case h_10 | h_11 =>
    obtain ⟨text, -, htext⟩ := map_ok_inv h
    cases htext
  all_goals cases h

theorem scalar_cell (h : Conforms t x) (ht : Decode.IsScalar t) (hx : x.isNull = false)
    (hc : ColumnType.ofType t = .ok c) (henc : Encode.scalar t x = .ok token) :
    (∀ y, scalarCell c token = .ok y → y = x.quiet) ∧ (x.FourDigits → scalarCell c token = .ok x.quiet) := by
  have here (hcell : scalarCell c token = .ok x.quiet) :
      (∀ y, scalarCell c token = .ok y → y = x.quiet) ∧ (x.FourDigits → scalarCell c token = .ok x.quiet) := by
    refine ⟨fun y hy => ?_, fun _ => hcell⟩
    rw [hcell] at hy
    exact (Except.ok.inj hy).symm
  cases h with
  | null => contradiction
  | named | array | map | struct => contradiction
  | binary bytes =>
    rw [ColumnType.ofType] at hc
    cases hc
  | boolean v | string v =>
    rw [ColumnType.ofType] at hc
    cases hc
    cases henc
    exact here rfl
  | byte v =>
    rw [ColumnType.ofType] at hc
    cases hc
    cases henc
    apply here
    rw [Encode.integer, scalarCell, whole_cell (by decide) ⟨v.le_toInt, v.toInt_lt⟩, Except.map, Int8.ofInt_toInt]
    rfl
  | short v =>
    rw [ColumnType.ofType] at hc
    cases hc
    cases henc
    apply here
    rw [Encode.integer, scalarCell, whole_cell (by decide) ⟨v.le_toInt, v.toInt_lt⟩, Except.map, Int16.ofInt_toInt]
    rfl
  | integer v =>
    rw [ColumnType.ofType] at hc
    cases hc
    cases henc
    apply here
    rw [Encode.integer, scalarCell, whole_cell (by decide) ⟨v.le_toInt, v.toInt_lt⟩, Except.map, Int32.ofInt_toInt]
    rfl
  | long v =>
    rw [ColumnType.ofType] at hc
    cases hc
    cases henc
    apply here
    rw [Encode.integer, scalarCell, whole_cell (by decide) ⟨v.le_toInt, v.toInt_lt⟩, Except.map, Int64.ofInt_toInt]
    rfl
  | float v =>
    rw [ColumnType.ofType] at hc
    cases hc
    cases henc
    apply here
    rw [scalarCell, real_cell Format.single_proper]
    rfl
  | double v =>
    rw [ColumnType.ofType] at hc
    cases hc
    cases henc
    apply here
    rw [scalarCell, real_cell Format.double_proper]
    rfl
  | decimal d =>
    obtain rfl := ColumnType.of_type_decimal hc
    cases henc
    apply here
    rw [scalarCell, decimal_cell]
    rfl
  | date days =>
    rw [ColumnType.ofType] at hc
    cases hc
    obtain ⟨text, htext, rfl⟩ := map_ok_inv henc
    exact date_column htext
  | timestamp micros =>
    rw [ColumnType.ofType] at hc
    cases hc
    obtain ⟨text, htext, rfl⟩ := map_ok_inv henc
    exact timestamp_column htext

end Scalars

section Nested

variable {e w : DataType} {n : Bool} {fs : List Field} {columns : List Column} {row cells : List Value}
  {members : List (String × Json)}

theorem scalar_not_nested (ht : Decode.IsScalar t) (hc : ColumnType.ofType t = .ok c) : isNested c = false := by
  cases t with
  | decimal p s =>
    obtain rfl := ColumnType.of_type_decimal hc
    rfl
  | _ =>
    first
    | contradiction
    | rw [ColumnType.ofType] at hc
      cases hc
      rfl

theorem cell_null (c : ColumnType) (b : Bool) :
    cell c b .null = if isNested c && !b then .error .columns else .ok .null := by
  unfold cell
  rfl

theorem cell_scalar (hc : isNested c = false) (hv : v ≠ .null) : cell c b v = scalarCell c v := by
  unfold cell
  cases c <;> cases v <;> first | contradiction | rfl

theorem cell_list (name : String) (c : ColumnType) (items : List Json) :
    cell (.list ⟨name, c, n⟩) b (.arr items) = (items.mapM (cell c n)).map .array := by
  rw [cell]

theorem cell_map (c : ColumnType) (members : List (String × Json)) :
    cell (.map ⟨"entries", .struct [⟨"keys", .utf8, false⟩, ⟨"values", c, n⟩], false⟩ false) b (.obj members) =
      (members.mapM fun m => (cell c n m.2).map (m.1, ·)).map .map := by
  rw [cell]

theorem cell_struct (members : List (String × Json)) :
    cell (.struct columns) b (.obj members) = (fieldCells columns b members).map .struct := by
  rw [cell]

theorem field_cells_cons {column : Column} (h : fieldCells (column :: columns) b members = .ok cells) : ∃ c rest,
    cell column.type (column.nullable || b) ((Json.member? members column.name).getD .null) = .ok c ∧
      fieldCells columns b members = .ok rest ∧ cells = c :: rest := by
  obtain ⟨name, c, own⟩ := column
  rw [fieldCells] at h
  obtain ⟨c, hc, h⟩ := bind_ok_inv h
  split at h
  · cases h
  · obtain ⟨rest, hrest, rfl⟩ := map_ok_inv h
    exact ⟨c, rest, hc, hrest, rfl⟩

theorem field_cells (hlen : row.length = fs.length) (hcolumns : ColumnType.ofFields fs = .ok columns)
    (h : ∀ p ∈ fs.zip row, ∀ c b y, ColumnType.ofType p.1.type = .ok c →
      cell c b ((Json.member? members p.1.name).getD .null) = .ok y → y = p.2.quiet)
    (hcells : fieldCells columns b members = .ok cells) : cells = row.map Value.quiet := by
  induction fs generalizing row cells columns with
  | nil =>
    obtain rfl := List.length_eq_zero_iff.mp hlen
    rw [ColumnType.ofFields] at hcolumns
    cases hcolumns
    rw [fieldCells] at hcells
    cases hcells
    rfl
  | cons f fs ih =>
    cases row with
    | nil => contradiction
    | cons v row =>
      rw [List.length_cons, List.length_cons, Nat.add_right_cancel_iff] at hlen
      rw [List.zip_cons_cons, List.forall_mem_cons] at h
      obtain ⟨c, others, hc, hothers, rfl⟩ := ColumnType.of_fields_cons hcolumns
      obtain ⟨y, rest, hy, hrest, rfl⟩ := field_cells_cons hcells
      rw [List.map_cons, h.1 c _ y hc hy, ih hlen hothers h.2 hrest]

theorem field_cells_ok (hlen : row.length = fs.length) (hcolumns : ColumnType.ofFields fs = .ok columns)
    (h : ∀ p ∈ fs.zip row, ∀ c, ColumnType.ofType p.1.type = .ok c →
      cell c (p.1.nullable || b) ((Json.member? members p.1.name).getD .null) = .ok p.2.quiet)
    (hnull : ∀ p ∈ fs.zip row, p.2 = .null → p.1.nullable = true) :
    fieldCells columns b members = .ok (row.map Value.quiet) := by
  induction fs generalizing row columns with
  | nil =>
    obtain rfl := List.length_eq_zero_iff.mp hlen
    rw [ColumnType.ofFields] at hcolumns
    cases hcolumns
    rw [fieldCells]
    rfl
  | cons f fs ih =>
    cases row with
    | nil => contradiction
    | cons v row =>
      rw [List.length_cons, List.length_cons, Nat.add_right_cancel_iff] at hlen
      rw [List.zip_cons_cons, List.forall_mem_cons] at h hnull
      obtain ⟨c, others, hc, hothers, rfl⟩ := ColumnType.of_fields_cons hcolumns
      have hdeclared : (v.quiet.isNull && !f.nullable) = false := by
        cases hquiet : v.quiet.isNull with
        | false => rfl
        | true =>
          rw [hnull.1 (Value.quiet_eq_null_iff.mp (Value.null_of_is_null hquiet))]
          rfl
      have hcell : cell c (f.nullable || b) ((Json.member? members f.name).getD .null) = .ok v.quiet := h.1 c hc
      have hothers := ih hlen hothers h.2 hnull.2
      rw [fieldCells, hcell]
      change (if (v.quiet.isNull && !f.nullable && !isNullColumn c) = true then .error .columns
        else (fieldCells others b members).map (v.quiet :: ·)) = .ok (v.quiet :: row.map Value.quiet)
      rw [hdeclared, Bool.false_and, if_neg Bool.false_ne_true, hothers]
      rfl

theorem scalar_value_cell (h : Conforms t x) (ht : Decode.IsScalar t) (hx : x.isNull = false)
    (hc : ColumnType.ofType t = .ok c) (henc : Encode.value t x = .ok token) :
    (∀ y, cell c b token = .ok y → y = x.quiet) ∧ (x.FourDigits → cell c b token = .ok x.quiet) := by
  rw [Decode.encode_scalar ht hx] at henc
  rw [cell_scalar (scalar_not_nested ht hc) (scalar_not_null henc)]
  exact scalar_cell h ht hx hc henc

/-- Whatever cell is read from the token of a value, it is the value. -/
theorem value_cell (h : Conforms t x) (ht : t.repeatedName? id = none) (hc : ColumnType.ofType t = .ok c)
    (henc : Encode.value t x = .ok token) (hcell : cell c b token = .ok y) : y = x.quiet := by
  -- Null is of every type, so the induction is on how the value conforms and not on the type.
  induction h generalizing c token b y with
  | null t =>
    rw [Encode.value_null] at henc
    cases henc
    rw [cell_null] at hcell
    split at hcell
    · cases hcell
    · exact (Except.ok.inj hcell).symm
  | named _ ih =>
    rw [Encode.value_alias] at henc
    rw [ColumnType.of_type_alias] at hc
    exact ih ht hc henc hcell
  | @array e n items _ ih =>
    obtain ⟨tokens, htokens, rfl⟩ := Encode.value_array_inv henc
    obtain ⟨item, hitem, rfl⟩ := ColumnType.of_type_array hc
    rw [cell_list] at hcell
    obtain ⟨cells, hcells, rfl⟩ := map_ok_inv hcell
    have hsame := map_m_through (fun v hv token c htoken hc => ih v hv ht hitem htoken hc) htokens hcells
    rw [hsame, Value.quiet_array]
  | @map w n entries _ ih =>
    obtain ⟨members, hmembers, rfl⟩ := Encode.value_map_inv henc
    obtain ⟨item, hitem, rfl⟩ := ColumnType.of_type_map hc
    rw [cell_map] at hcell
    obtain ⟨cells, hcells, rfl⟩ := map_ok_inv hcell
    have hentry : ∀ e ∈ entries, ∀ m c, (Encode.value w e.2).map (e.1, ·) = .ok m →
        (cell item n m.2).map (m.1, ·) = .ok c → c = (e.1, e.2.quiet) := by
      intro e he m c hm hc
      obtain ⟨token, htoken, rfl⟩ := map_ok_inv hm
      obtain ⟨y, hy, rfl⟩ := map_ok_inv hc
      rw [ih e he ht hitem htoken hy]
    rw [map_m_through hentry hmembers hcells, Value.quiet_map]
  | @struct fs row hlen _ ih =>
    obtain ⟨members, hmembers, rfl⟩ := Encode.value_struct_inv henc
    obtain ⟨hfields, hpairs⟩ := repeated_among_none_iff.mp ht
    obtain ⟨columns, hcolumns, rfl⟩ := ColumnType.of_type_struct hc
    rw [cell_struct] at hcell
    obtain ⟨cells, hcells, rfl⟩ := map_ok_inv hcell
    have hnames := List.pairwise_map.mpr hpairs
    have hsame : cells = row.map Value.quiet := by
      refine field_cells hlen hcolumns ?_ hcells
      intro p hp c b y hc hy
      exact ih p hp (hfields p.1 (List.of_mem_zip hp).1).2 hc (Encode.fields_lookup hlen hnames hmembers hp) hy
    rw [hsame, Value.quiet_struct]
  | boolean | byte | short | integer | long | float | double | decimal | string | binary | date | timestamp =>
    refine (scalar_value_cell ?_ ?_ rfl hc henc).1 y hcell
    · constructor
    · trivial

theorem stored_token (h : Stored t x) : ∃ token, Encode.value t x = .ok token := by
  induction h with
  | null t => exact ⟨.null, Encode.value_null t⟩
  | named _ ih =>
    rw [Encode.value_alias]
    exact ih
  | scalar ht hx hconforms hyear =>
    rw [Decode.encode_scalar ht hx]
    cases hconforms with
    | date days =>
      obtain ⟨text, htext, -⟩ := Calendar.FourDigitYear.strict_date hyear
      exact ⟨.str text, by rw [Encode.scalar, Encode.date, htext]; rfl⟩
    | timestamp micros =>
      obtain ⟨text, htext, -⟩ := Calendar.FourDigitYear.strict_timestamp hyear
      exact ⟨.str text, by rw [Encode.scalar, Encode.timestamp, htext]; rfl⟩
    | null => contradiction
    | named | array | map | struct => contradiction
    | _ => exact ⟨_, rfl⟩
  | array _ _ ih => exact Encode.value_array_ok_iff.mpr ih
  | map _ _ ih => exact Encode.value_map_ok_iff.mpr ih
  | struct hlen _ _ ih => exact (Encode.value_struct_ok_iff hlen).mpr ih

theorem stored_cell (h : Stored t x) (ht : t.repeatedName? id = none) (hc : ColumnType.ofType t = .ok c)
    (henc : Encode.value t x = .ok token) (hnull : x = .null → b = true) : cell c b token = .ok x.quiet := by
  induction h generalizing c token b with
  | null t =>
    rw [Encode.value_null] at henc
    cases henc
    rw [cell_null, hnull rfl, Bool.not_true, Bool.and_false, if_neg Bool.false_ne_true]
    rfl
  | named _ ih =>
    rw [Encode.value_alias] at henc
    rw [ColumnType.of_type_alias] at hc
    exact ih ht hc henc hnull
  | scalar hscalar hx hconforms hyear => exact (scalar_value_cell hconforms hscalar hx hc henc).2 hyear
  | @array e n items _ hdeclared ih =>
    obtain ⟨tokens, htokens, rfl⟩ := Encode.value_array_inv henc
    obtain ⟨item, hitem, rfl⟩ := ColumnType.of_type_array hc
    have hcells := map_m_back (fun v hv token htoken => ih v hv ht hitem htoken (hdeclared v hv)) htokens
    rw [cell_list, hcells, Value.quiet_array]
    rfl
  | @map w n entries _ hdeclared ih =>
    obtain ⟨members, hmembers, rfl⟩ := Encode.value_map_inv henc
    obtain ⟨item, hitem, rfl⟩ := ColumnType.of_type_map hc
    have hentry : ∀ e ∈ entries, ∀ m, (Encode.value w e.2).map (e.1, ·) = .ok m →
        (cell item n m.2).map (m.1, ·) = .ok (e.1, e.2.quiet) := by
      intro e he m hm
      obtain ⟨token, htoken, rfl⟩ := map_ok_inv hm
      rw [ih e he ht hitem htoken (hdeclared e he)]
      rfl
    rw [cell_map, map_m_back hentry hmembers, Value.quiet_map]
    rfl
  | @struct fs row hlen _ hdeclared ih =>
    obtain ⟨members, hmembers, rfl⟩ := Encode.value_struct_inv henc
    obtain ⟨hfields, hpairs⟩ := repeated_among_none_iff.mp ht
    obtain ⟨columns, hcolumns, rfl⟩ := ColumnType.of_type_struct hc
    have hnames := List.pairwise_map.mpr hpairs
    have hcells : fieldCells columns b members = .ok (row.map Value.quiet) := by
      refine field_cells_ok hlen hcolumns ?_ hdeclared
      intro p hp c hc
      refine ih p hp (hfields p.1 (List.of_mem_zip hp).1).2 hc (Encode.fields_lookup hlen hnames hmembers hp) ?_
      intro hv
      rw [hdeclared p hp hv, Bool.true_or]
    rw [cell_struct, hcells, Value.quiet_struct]
    rfl

end Nested

end Batch

end TypedRecords
