import Mathlib.Data.List.Nodup
import TypedRecords.Proofs.Json.Grammar
import TypedRecords.Proofs.Json.Printable
import TypedRecords.Proofs.Row.Matching
/-!
# Rows are lines

Whatever values a row has, if it can be written then it is written on one line, as a compact object whose members are
the fields that are not null, in the order of the schema.
-/

namespace TypedRecords.Encode

open DataType
open Json (Formed Read Printable TreeText)

variable {s : Schema} {t : DataType} {v : Value} {token : Json} {fs : List Field} {row : List Value}
  {members : List (String × Json)}

theorem scalar_read (h : scalar t v = .ok token) : Read token := by
  unfold scalar at h
  split at h
  case h_1 =>
    cases h
    exact .str _
  case h_2 =>
    cases h
    exact .bool _
  case h_3 | h_4 | h_5 | h_6 =>
    cases h
    exact Decode.integer_formed _ _
  case h_7 | h_8 =>
    cases h
    exact Decode.real_formed _ _ _
  case h_9 d =>
    cases h
    obtain ⟨n, hn, -⟩ := d.text_numeral
    rw [Decimal.text, ← hn]
    exact .num n
  case h_10 | h_11 =>
    obtain ⟨text, -, rfl⟩ := map_ok_inv h
    exact .str text
  case h_12 =>
    cases h
    exact .str _
  case h_13 => cases h

theorem value_read (h : value t v = .ok token) : Read token := by
  induction t using DataType.induct generalizing v token with
  | scalar t ht =>
    cases hnull : v.isNull with
    | true =>
      rw [Value.null_of_is_null hnull, value_null] at h
      cases h
      exact .null
    | false =>
      rw [Decode.encode_scalar ht hnull] at h
      exact scalar_read h
  | named name t ih =>
    rw [value_alias] at h
    exact ih h
  | array e n ih =>
    rcases value_array_kind h with rfl | ⟨items, rfl⟩
    · cases h
      exact .null
    · obtain ⟨tokens, htokens, rfl⟩ := value_array_inv h
      refine .arr ?_
      intro w hw
      obtain ⟨x, -, hx⟩ := map_m_mem htokens w hw
      exact ih hx
  | map w n ih =>
    rcases value_map_kind h with rfl | ⟨entries, rfl⟩
    · cases h
      exact .null
    · obtain ⟨members, hmembers, rfl⟩ := value_map_inv h
      refine .obj trivial ?_
      intro m hm
      obtain ⟨e, -, he⟩ := map_m_mem hmembers m hm
      obtain ⟨token, htoken, rfl⟩ := map_ok_inv he
      exact ih htoken
  | struct fs ih =>
    rcases value_struct_kind h with rfl | ⟨row, rfl, -⟩
    · cases h
      exact .null
    · obtain ⟨members, hmembers, rfl⟩ := value_struct_inv h
      refine .obj trivial ?_
      intro m hm
      obtain ⟨p, hp, -, hvalue⟩ := (fields_members hmembers).1 m hm
      exact ih p.1 (List.of_mem_zip hp).1 hvalue

theorem present_keys (h : fields fs row = .ok members) :
    members.map Prod.fst = (present fs row).map fun p => p.1.name := by
  have hkeys : List.Forall₂ (· = ·) ((present fs row).map fun p => p.1.name) (members.map Prod.fst) := by
    rw [List.forall₂_map_left_iff, List.forall₂_map_right_iff]
    exact (fields_present h).imp fun _ _ hm => hm.1
  rw [List.forall₂_eq_eq_eq] at hkeys
  exact hkeys.symm

/-- What a reader finds under a field's name is the token of the field's value, if absent members stand for null. -/
theorem fields_lookup (hlen : row.length = fs.length) (hnames : (fs.map FieldOf.name).Nodup)
    (h : fields fs row = .ok members) {p : Field × Value} (hp : p ∈ fs.zip row) :
    value p.1.type p.2 = .ok ((Json.member? members p.1.name).getD .null) := by
  have hsub := (fields_members h).2
  cases hnull : p.2.isNull with
  | false =>
    obtain ⟨m, hm, hname, hvalue⟩ := field_member hp hnull h
    rw [hname, Decode.member_of_mem (hnames.sublist hsub) hm]
    exact hvalue
  | true =>
    have habsent : Json.member? members p.1.name = none := by
      rw [Json.member_none_iff, present_keys h]
      intro hkey
      obtain ⟨q, hq, hname⟩ := List.mem_map.mp hkey
      obtain ⟨hq, hpresent⟩ := List.mem_filter.mp hq
      have hpairs : ((fs.zip row).map (FieldOf.name ∘ Prod.fst)).Nodup := by
        rwa [← List.map_map, List.map_fst_zip (Nat.le_of_eq hlen.symm)]
      -- The names tell the fields apart, so the member would be that of the null itself.
      have hsame : q = p := List.inj_on_of_nodup_map hpairs hq hp hname
      simp [hsame, hnull] at hpresent
    rw [habsent, Value.null_of_is_null hnull]
    exact value_null _

/-- A row that can be written is one line, and its line is the compact text of an object. The members are the fields of
the schema that are not null, each once and in their order, and a reader that allows their nesting gets them back. -/
theorem encoded_row_line {text : String} (h : Encode.row s row = .ok text) :
    row.length = s.size ∧ Printable text.toList ∧ ∃ members, TreeText (.obj members) text.toList ∧
      members.map Prod.fst = (present s.fields row).map (fun p => p.1.name) ∧ (members.map Prod.fst).Nodup ∧
      List.Forall₂ (fun p m => value p.1.type p.2 = .ok m.2) (present s.fields row) members ∧
      ∀ depth, Json.read? .all depth text = if (Json.obj members).depth ≤ depth then some (.obj members) else none := by
  obtain ⟨token, htoken, rfl⟩ := map_ok_inv h
  have hread := value_read htoken
  rcases value_struct_kind htoken with hnull | ⟨values, hvalues, hlen⟩
  · cases hnull
  cases hvalues
  obtain ⟨members, hmembers, rfl⟩ := value_struct_inv htoken
  have hchars : (Json.obj members).compact.toList = (Json.obj members).compactChars := String.toList_ofList
  have hkeys := (fields_members hmembers).2
  rw [hchars]
  refine ⟨hlen, Json.compact_printable hread, members, Json.compact_text hread, present_keys hmembers, ?_, ?_, ?_⟩
  · exact s.names_nodup.sublist hkeys
  · exact (fields_present hmembers).imp fun _ _ hm => hm.2
  · exact Json.read_compact_within hread

/-- A name and a string that are escaped, a null between them and a decimal, and a decimal with zeros in front. -/
theorem encoded_row_line_escapes :
    let s : Schema := ⟨[⟨"a\n", .string, true⟩, ⟨"b", .long, true⟩, ⟨"c", .decimal 4 3, true⟩], by decide⟩
    let row : Row := [.string "\"", .null, .decimal ⟨-5, 4, 3, by decide, by decide, by decide, by decide⟩]
    let text := (Json.obj [("a\n", .str "\""), ("c", .num "-0.005")]).compact
    Encode.row s row = .ok text ∧ row.length = s.size ∧ Printable text.toList ∧
      ∃ members, TreeText (.obj members) text.toList ∧ members.map Prod.fst = ["a\n", "c"] := by
  intro s row text
  have h : Encode.row s row = .ok text := rfl
  obtain ⟨hlen, hprintable, members, htext, hkeys, -⟩ := encoded_row_line h
  exact ⟨h, hlen, hprintable, members, htext, hkeys⟩

end TypedRecords.Encode
