import TypedRecords.Proofs.Row.RoundTrip
/-!
# Records round trip

The text of a row decodes to the row, up to the choice of NaN, exactly when no object in it begins with the key of
a boxed number and no single is changed by reading it as a double.
-/

namespace TypedRecords

open Json (Settled Boxless Formed)

namespace Json

theorem compact_members_length {members : List (String × Json)} {m : String × Json} (hm : m ∈ members) :
    m.2.compactChars.length < (compactMembers members).length := by
  induction members with
  | nil => cases hm
  | cons n ms ih =>
    obtain ⟨k, v⟩ := n
    rw [compactMembers, List.length_cons, List.length_append, List.length_cons, List.length_append]
    rcases List.mem_cons.mp hm with rfl | hm
    · dsimp only
      omega
    · have := ih hm
      omega

theorem compact_object_length {members : List (String × Json)} {m : String × Json} (hm : m ∈ members) :
    m.2.compactChars.length < (Json.obj members).compactChars.length := by
  cases members with
  | nil => cases hm
  | cons n ms =>
    have hlt := compact_members_length hm
    obtain ⟨k, v⟩ := n
    rw [compactMembers] at hlt
    rw [compactChars]
    exact hlt

theorem quote_length (s : String) : s.toList.length < (quote s).length := by
  have := escape_length s.toList
  rw [quote, List.length_cons, List.length_append, List.length_cons]
  omega

end Json

namespace Decode

open DataType

variable {o : Options} {s : Schema} {t : DataType} {row : Row} {token : Json} {fs : List Field}
  {members : List (String × Json)}

theorem row_back (hrow : WellTyped o s.toType (.struct row)) (henc : Encode.object s row = .ok token) :
    Back o s.toType (.struct row) token := by
  refine value_back hrow ?_ henc
  rw [Schema.toType, repeatedName?]
  exact s.distinct

theorem record_boxless (hrow : WellTyped o s.toType (.struct row)) (henc : Encode.object s row = .ok token)
    (hdepth : token.depth < 128) (hbox : Boxless token) :
    record s o token.compact = .ok [row.map Value.reread] := by
  have hback := row_back hrow henc
  have htext := Json.of_text_compact hback.settled hbox (Nat.le_of_lt_succ hdepth)
  have hread := hback.read
  obtain ⟨members, -, rfl⟩ := Encode.value_struct_inv henc
  rw [Schema.toType, value_object, Value.reread, Value.mapReals, Value.map_reals_all_eq] at hread
  obtain ⟨values, hfields, hvalues⟩ := map_ok_inv hread
  cases hvalues
  rw [record_object htext, hfields]
  rfl

theorem record_boxed (hrow : WellTyped o s.toType (.struct row)) (henc : Encode.object s row = .ok token)
    (hdepth : token.depth < 128) (hbox : ¬ Boxless token) :
    record s o token.compact = .ok (corruptRows s o token.compact) ∨
      ∃ e, record s o token.compact = .error e := by
  have hback := row_back hrow henc
  have htext : Json.ofText? token.compact = token.unbox?.map Json.settle := by
    rw [Json.ofText?, Json.read_compact (hback.settled.imp fun _ _ => trivial) (Nat.le_of_lt_succ hdepth),
      Option.bind_some]
  obtain ⟨members, -, rfl⟩ := Encode.value_struct_inv henc
  rw [record, htext]
  cases hunbox : (Json.obj members).unbox? with
  | none => exact Or.inl rfl
  | some w =>
    have hsettled : w.settle = w := Json.settle_self (Json.unbox_formed hback.settled hunbox)
    rw [Option.map_some, hsettled]
    rcases Json.boxed_members hbox hunbox with ⟨literal, rfl⟩ | ⟨unboxed, rfl, -⟩
    · exact Or.inl rfl
    · obtain ⟨e, he⟩ := hback.boxed hbox _ hunbox
      rw [Schema.toType, value_object] at he
      refine Or.inr ?_
      cases hfields : fields o s.fields unboxed with
      | error e' =>
        refine ⟨e', ?_⟩
        simp only [hfields]
        rfl
      | ok values =>
        rw [hfields] at he
        cases he

theorem corrupt_rows_differ (henc : Encode.object s row = .ok token) :
    ∀ other ∈ corruptRows s o token.compact, other.map Value.quiet ≠ row.map Value.quiet := by
  intro other hother hsame
  obtain ⟨i, f, hf, ht, rfl⟩ := mem_corrupt_rows hother
  obtain ⟨hlt, -⟩ := List.getElem?_eq_some_iff.mp hf
  have hput : ((Row.nulls s.size).put i (.string token.compact))[i]? = some (.string token.compact) := by
    rw [Row.put, List.getElem?_set_self]
    simpa [Row.nulls, Schema.size] using hlt
  have hquiet := congrArg (·[i]?) hsame
  simp only [List.getElem?_map, hput, Option.map_some] at hquiet
  obtain ⟨v, hv, hvq⟩ := Option.map_eq_some_iff.mp hquiet.symm
  obtain rfl : v = .string token.compact := by
    cases v <;> simp_all [Value.quiet, Value.mapReals]
  obtain ⟨members, hmembers, rfl⟩ := Encode.value_struct_inv henc
  have hzip : (f, .string (Json.obj members).compact) ∈ s.fields.zip row :=
    List.mem_of_getElem? (List.getElem?_zip_eq_some.mpr ⟨hf, hv⟩)
  obtain ⟨m, hm, -, hvalue⟩ := Encode.field_member hzip rfl hmembers
  rw [Encode.value_string ht] at hvalue
  have hshort := Json.compact_object_length hm
  rw [← Except.ok.inj hvalue, Json.compactChars] at hshort
  have hquote := Json.quote_length (Json.obj members).compact
  rw [Json.compact, String.toList_ofList] at hquote
  exact absurd hshort (Nat.not_lt_of_gt hquote)

/-- A well typed row that can be written comes back from its text, up to the choice of NaN, exactly when no object
in the text begins with the key of a boxed number and every finite single is the one nearest to the double that its
digits are read as. -/
theorem decode_encode_iff (hrow : WellTyped o s.toType (.struct row)) (henc : Encode.object s row = .ok token)
    (hdepth : token.depth < 128) :
    (∃ again, record s o token.compact = .ok [again] ∧ again.map Value.quiet = row.map Value.quiet) ↔
      Boxless token ∧ ∀ x, Value.Holds x (.struct row) → x.isFinite = true → x.narrowed = x := by
  have hquiet : (Value.struct row).reread.quiet = (Value.struct row).quiet ↔
      (row.map Value.reread).map Value.quiet = row.map Value.quiet := by
    simp only [Value.reread, Value.quiet, Value.mapReals, Value.map_reals_all_eq, Value.struct.injEq]
  rw [← Value.quiet_reread_iff, hquiet]
  constructor
  · rintro ⟨again, hagain, hsame⟩
    have hbox : Boxless token := by
      by_contra hbox
      rcases record_boxed hrow henc hdepth hbox with hcorrupt | ⟨e, he⟩
      · rw [hcorrupt] at hagain
        refine corrupt_rows_differ (o := o) henc again ?_ hsame
        rw [Except.ok.inj hagain]
        exact List.mem_singleton_self again
      · rw [he] at hagain
        cases hagain
    rw [record_boxless hrow henc hdepth hbox] at hagain
    cases hagain
    exact ⟨hbox, hsame⟩
  · rintro ⟨hbox, hsame⟩
    exact ⟨_, record_boxless hrow henc hdepth hbox, hsame⟩

theorem decode_encode_sizes : ∃ again,
    record ⟨[⟨"size", .float, true⟩, ⟨"tags", .map .string true, true⟩], rfl⟩ {}
      (Json.obj [("size", .num "1.5"), ("tags", .obj [("a", .str "x")])]).compact = .ok [again] ∧
    again.map Value.quiet = [.float ⟨0x3fc00000#32⟩, .map [("a", .string "x")]].map Value.quiet := by
  have htext : (⟨0x3fc00000#32⟩ : Single).finiteText .recordSingle = ['1', '.', '5'] := by decide +kernel
  have henc : Encode.object ⟨[⟨"size", .float, true⟩, ⟨"tags", .map .string true, true⟩], rfl⟩
      [.float ⟨0x3fc00000#32⟩, .map [("a", .string "x")]] =
        .ok (.obj [("size", .num "1.5"), ("tags", .obj [("a", .str "x")])]) := by
    have hreal : Encode.real .recordSingle (⟨0x3fc00000#32⟩ : Single) = .num "1.5" := by
      rw [Encode.real, htext]
      rfl
    simp [Encode.object, Schema.toType, Encode.value, Encode.fields, Value.isNull, Encode.scalar, hreal]
    rfl
  refine (decode_encode_iff (.struct rfl ?_) henc (by decide)).mpr ⟨?_, ?_⟩
  · simp only [List.zip_cons_cons, List.zip_nil_right, List.forall_mem_cons]
    exact ⟨.float fun _ => by decide, .map (by simp) (by simpa using .string "x"), by simp⟩
  · refine .obj (by decide) ?_
    simp only [List.forall_mem_cons]
    exact ⟨.num ⟨false, ['1'], ['5'], none, by decide, by decide, rfl, by simp⟩,
      .obj (by decide) (by simpa using .str "x"), by simp⟩
  · intro x hx _
    cases hx with
    | field hv hx =>
      rcases List.mem_cons.mp hv with rfl | hv
      · cases hx with
        | here => decide +kernel
      · obtain rfl := List.mem_singleton.mp hv
        cases hx with
        | entry he hx =>
          obtain rfl := List.mem_singleton.mp he
          cases hx

/-- A column that is named like the box of a number is lost. -/
theorem boxed_column_lost :
    WellTyped {} (.struct [⟨Json.numberKey, .string, true⟩]) (.struct [.string "12"]) ∧
    Encode.object ⟨[⟨Json.numberKey, .string, true⟩], rfl⟩ [.string "12"] =
      .ok (.obj [(Json.numberKey, .str "12")]) ∧
    record ⟨[⟨Json.numberKey, .string, true⟩], rfl⟩ {} (Json.obj [(Json.numberKey, .str "12")]).compact = .ok [] := by
  refine ⟨.struct rfl ?_, rfl, ?_⟩
  · simpa using .string "12"
  · have htext : Json.ofText? (Json.obj [(Json.numberKey, .str "12")]).compact = some (.num "12") := by cbv
    rw [record, htext]
    rfl

/-- A single that comes back as the next one, in any column. -/
example : (⟨0x15ae43fd#32⟩ : Single).reread = ⟨0x15ae43fe#32⟩ := by decide +kernel

end Decode

end TypedRecords
