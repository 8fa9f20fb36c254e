import TypedRecords.Proofs.Json.RoundTrip
import TypedRecords.Proofs.Row.Scalars
import TypedRecords.Proofs.Schema.Distinct
/-!
# Values round trip

The token of a well typed value is read as the value again, with singles narrowed from doubles. A token with a box
in it is not read at all.
-/

namespace TypedRecords

open Json (Settled Boxless Formed)

/-- The values that a column of a type holds under these options: null, or a value of the type's kind, with each
part of its own type. The options decide which bytes and which numbers can be told from null and from text. -/
inductive WellTyped (o : Options) : DataType → Value → Prop where
  | null (t) : WellTyped o t .null
  | named {n t v} : WellTyped o t v → WellTyped o (.alias n t) v
  | boolean (b) : WellTyped o .boolean (.boolean b)
  | byte (v) : WellTyped o .byte (.byte v)
  | short (v) : WellTyped o .short (.short v)
  | integer (v) : WellTyped o .integer (.integer v)
  | long (v) : WellTyped o .long (.long v)
  | float {x} : (o.strictNumbers = true → x.isFinite = true) → WellTyped o .float (.float x)
  | double {x} : (o.strictNumbers = true → x.isFinite = true) → WellTyped o .double (.double x)
  | decimal (d) : WellTyped o (.decimal d.precision d.scale) (.decimal d)
  | string (s) : WellTyped o .string (.string s)
  | binary {bytes} : (o.emptyStringAsNull = true → bytes ≠ []) → WellTyped o .binary (.binary bytes)
  | date (days) : WellTyped o .date (.date days)
  | timestamp (micros) : WellTyped o .timestamp (.timestamp micros)
  | array {e n items} : (∀ v ∈ items, WellTyped o e v) → WellTyped o (.array e n) (.array items)
  | map {w n entries} : (entries.map Prod.fst).Nodup → (∀ e ∈ entries, WellTyped o w e.2) →
      WellTyped o (.map w n) (.map entries)
  | struct {fs row} : row.length = fs.length → (∀ p ∈ fs.zip row, WellTyped o p.1.type p.2) →
      WellTyped o (.struct fs) (.struct row)

namespace Decode

open DataType

variable {o : Options} {t : DataType} {v : Json} {x : Value} {token : Json} {fs : List Field} {row : List Value}
  {members ms : List (String × Json)}

/-- What a written value is worth to the reader. -/
structure Back (o : Options) (t : DataType) (x : Value) (token : Json) : Prop where
  read : value o t token = .ok x.reread
  settled : Settled token
  boxed : ¬ Boxless token → ∀ w, token.unbox? = some w → ∃ e, value o t w = .error e

theorem ScalarBack.back (ht : IsScalar t) (h : ScalarBack o t x token) : Back o t x token where
  read := by rw [value_scalar ht h.present, h.read]
  settled := h.formed _
  boxed hbox := absurd (h.formed _) hbox

theorem null_back (t : DataType) : Back o t .null .null where
  read := by
    unfold value
    rfl
  settled := .null
  boxed hbox := absurd .null hbox

theorem value_alias (n : String) (t : DataType) (v : Json) : value o (.alias n t) v = value o t v := by
  have hnull : isNullFor o (.alias n t) v = isNullFor o t v := rfl
  rw [value, hnull]
  split
  · next h =>
    unfold value
    rw [if_pos h]
  · rfl

theorem Back.named {n : String} (h : Back o t x token) : Back o (.alias n t) x token where
  read := by rw [value_alias, h.read]
  settled := h.settled
  boxed hbox w hw := by
    rw [value_alias]
    exact h.boxed hbox w hw

theorem array_back {e : DataType} {n : Bool} {items : List Value}
    (h : ∀ v ∈ items, ∀ token, Encode.value e v = .ok token → Back o e v token)
    (henc : Encode.value (.array e n) (.array items) = .ok token) : Back o (.array e n) (.array items) token := by
  obtain ⟨tokens, htokens, rfl⟩ := Encode.value_array_inv henc
  have hitem := map_m_mem htokens
  have hvalue (ws : List Json) : value o (.array e n) (.arr ws) = (ws.mapM (value o e)).map .array := by
    unfold value
    rfl
  refine ⟨?_, ?_, ?_⟩
  · rw [hvalue, map_m_back (fun v hv token hw => (h v hv token hw).read) htokens, Value.reread, Value.mapReals,
      Value.map_reals_all_eq]
    rfl
  · refine .arr fun w hw => ?_
    obtain ⟨v, hv, hw⟩ := hitem w hw
    exact (h v hv w hw).settled
  · intro hbox w hw
    obtain ⟨unboxed, rfl, token, htoken, hbox, u, hu, hunbox⟩ := Json.boxed_items hbox hw
    obtain ⟨v, hv, hvenc⟩ := hitem token htoken
    obtain ⟨err, herr⟩ := map_m_error hu ((h v hv token hvenc).boxed hbox u hunbox)
    rw [hvalue, herr]
    exact ⟨err, rfl⟩

theorem number_error (ht : (∃ w n, t = .map w n) ∨ ∃ fs, t = .struct fs) (literal : String) :
    ∃ e, value o t (.num literal) = .error e := by
  rcases ht with ⟨w, n, rfl⟩ | ⟨fs, rfl⟩
  · unfold value
    exact ⟨_, rfl⟩
  · unfold value
    exact ⟨_, rfl⟩

theorem map_back {w : DataType} {n : Bool} {entries : List (String × Value)} (hkeys : (entries.map Prod.fst).Nodup)
    (h : ∀ e ∈ entries, ∀ token, Encode.value w e.2 = .ok token → Back o w e.2 token)
    (henc : Encode.value (.map w n) (.map entries) = .ok token) : Back o (.map w n) (.map entries) token := by
  obtain ⟨members, hmembers, rfl⟩ := Encode.value_map_inv henc
  -- Each entry gives the member of its key.
  have hentry : ∀ e ∈ entries, ∀ m, (Encode.value w e.2).map (e.1, ·) = .ok m →
      m.1 = e.1 ∧ Encode.value w e.2 = .ok m.2 := by
    intro e _ m hm
    obtain ⟨token, htoken, rfl⟩ := map_ok_inv hm
    exact ⟨rfl, htoken⟩
  have hmember := map_m_mem hmembers
  have hvalue (ms : List (String × Json)) :
      value o (.map w n) (.obj ms) = (ms.mapM fun m => (value o w m.2).map (m.1, ·)).map .map := by
    rw [value]
    rfl
  refine ⟨?_, ?_, ?_⟩
  · have hback := map_m_back (g := fun m => (value o w m.2).map (m.1, ·)) (k := fun e => (e.1, e.2.reread))
      (fun e he m hm => by
        obtain ⟨hkey, hv⟩ := hentry e he m hm
        rw [(h e he m.2 hv).read, hkey]
        rfl) hmembers
    rw [hvalue, hback, Value.reread, Value.mapReals, Value.map_reals_entries_eq]
    rfl
  · have hsame : members.map Prod.fst = entries.map Prod.fst :=
      map_m_keeps (fun e he m hm => (hentry e he m hm).1) hmembers
    refine .obj (hsame ▸ hkeys) fun m hm => ?_
    obtain ⟨e, he, hem⟩ := hmember m hm
    exact (h e he m.2 (hentry e he m hem).2).settled
  · intro hbox u hu
    rcases Json.boxed_members hbox hu with ⟨literal, rfl⟩ | ⟨unboxed, rfl, -, m, hm, hbox, n, hn, -, hunbox⟩
    · exact number_error (Or.inl ⟨w, _, rfl⟩) literal
    obtain ⟨e, he, hem⟩ := hmember m hm
    obtain ⟨err, herr⟩ := (h e he m.2 (hentry e he m hem).2).boxed hbox n.2 hunbox
    obtain ⟨err', herr'⟩ := map_m_error (f := fun m : String × Json => (value o w m.2).map (m.1, ·)) hn
      ⟨err, by rw [herr]; rfl⟩
    rw [hvalue, herr']
    exact ⟨err', rfl⟩

theorem fields_back (hlen : row.length = fs.length) (hnames : (fs.map FieldOf.name).Nodup)
    (henc : Encode.fields fs row = .ok ms)
    (hlookup : ∀ name ∈ fs.map FieldOf.name, Json.member? members name = Json.member? ms name)
    (h : ∀ p ∈ fs.zip row, ∀ token, Encode.value p.1.type p.2 = .ok token → Back o p.1.type p.2 token) :
    fields o fs members = .ok (row.map Value.reread) := by
  induction fs generalizing row ms with
  | nil =>
    obtain rfl := List.length_eq_zero_iff.mp hlen
    rfl
  | cons f fs ih =>
    obtain ⟨name, t, n⟩ := f
    cases row with
    | nil => contradiction
    | cons v row =>
      rw [List.map_cons, List.nodup_cons] at hnames
      rw [List.length_cons, List.length_cons, Nat.add_right_cancel_iff] at hlen
      rw [List.zip_cons_cons, List.forall_mem_cons] at h
      rw [List.map_cons, List.forall_mem_cons] at hlookup
      rcases Encode.fields_cons_inv henc with ⟨hnull, hrest⟩ | ⟨token, rest, hv, hrest, rfl⟩
      · have habsent : Json.member? members name = none := by
          rw [hlookup.1, Json.member_none_iff]
          exact fun hmem => hnames.1 ((Encode.fields_members hrest).2.mem hmem)
        rw [fields, habsent, ih hlen hnames.2 hrest hlookup.2 h.2]
        cases v <;> first | contradiction | rfl
      · have hpresent : Json.member? members name = some token := by
          rw [hlookup.1]
          simp [Json.member?]
        have htail : ∀ other ∈ fs.map FieldOf.name, Json.member? members other = Json.member? rest other := by
          intro other hother
          rw [hlookup.2 other hother]
          have hne : (other == name) = false := by
            rw [beq_eq_false_iff_ne]
            rintro rfl
            exact hnames.1 hother
          rw [Json.member?, Json.member?, List.lookup_cons, hne]
        rw [fields, hpresent]
        simp only [(h.1 token hv).read, ih hlen hnames.2 hrest htail h.2]
        rfl

theorem fields_error {f : Field} (hf : f ∈ fs) (hv : Json.member? members f.name = some v)
    (he : ∃ e, value o f.type v = .error e) : ∃ e, fields o fs members = .error e := by
  induction fs with
  | nil => cases hf
  | cons g fs ih =>
    obtain ⟨name, t, n⟩ := g
    obtain ⟨e, he⟩ := he
    rw [fields]
    rcases List.mem_cons.mp hf with rfl | hf
    · rw [hv]
      simp only [he]
      exact ⟨e, rfl⟩
    · obtain ⟨e', he'⟩ := ih hf
      split
      · rw [he']
        exact ⟨e', rfl⟩
      · next w _ =>
        cases hw : value o t w with
        | error e'' => exact ⟨e'', rfl⟩
        | ok y =>
          simp only [he']
          exact ⟨e', rfl⟩

theorem member_of_mem (hkeys : (members.map Prod.fst).Nodup) {m : String × Json} (hm : m ∈ members) :
    Json.member? members m.1 = some m.2 := by
  induction members with
  | nil => cases hm
  | cons n ms ih =>
    rw [List.map_cons, List.nodup_cons] at hkeys
    rw [Json.member?, List.lookup_cons]
    rcases List.mem_cons.mp hm with rfl | hm
    · rw [beq_self_eq_true]
    · have hne : (m.1 == n.1) = false := by
        rw [beq_eq_false_iff_ne]
        intro heq
        exact hkeys.1 (heq ▸ List.mem_map_of_mem hm)
      rw [hne]
      exact ih hkeys.2 hm

theorem value_object (fs : List Field) (ms : List (String × Json)) :
    value o (.struct fs) (.obj ms) = (fields o fs ms).map .struct := by
  rw [value]
  rfl

theorem struct_back (hlen : row.length = fs.length) (hnames : (fs.map FieldOf.name).Nodup)
    (h : ∀ p ∈ fs.zip row, ∀ token, Encode.value p.1.type p.2 = .ok token → Back o p.1.type p.2 token)
    (henc : Encode.value (.struct fs) (.struct row) = .ok token) : Back o (.struct fs) (.struct row) token := by
  obtain ⟨members, hmembers, rfl⟩ := Encode.value_struct_inv henc
  obtain ⟨hmem, hsub⟩ := Encode.fields_members hmembers
  have hkeys := hnames.sublist hsub
  refine ⟨?_, ?_, ?_⟩
  · rw [value_object, fields_back hlen hnames hmembers (fun _ _ => rfl) h, Value.reread, Value.mapReals,
      Value.map_reals_all_eq]
    rfl
  · refine .obj hkeys fun m hm => ?_
    obtain ⟨p, hp, -, henc⟩ := hmem m hm
    exact (h p hp m.2 henc).settled
  · intro hbox w hw
    rcases Json.boxed_members hbox hw with ⟨literal, rfl⟩ | ⟨unboxed, rfl, hsame, m, hm, hbox, n, hn, hkey, hunbox⟩
    · exact number_error (Or.inr ⟨fs, rfl⟩) literal
    obtain ⟨p, hp, hname, henc⟩ := hmem m hm
    have hfield : Json.member? unboxed p.1.name = some n.2 := by
      rw [hname, ← hkey]
      exact member_of_mem (hsame ▸ hkeys) hn
    obtain ⟨err, herr⟩ := fields_error (List.of_mem_zip hp).1 hfield ((h p hp m.2 henc).boxed hbox n.2 hunbox)
    rw [value_object, herr]
    exact ⟨err, rfl⟩

/-- Every value that is written comes back. -/
theorem value_back (h : WellTyped o t x) (ht : t.repeatedName? id = none) (henc : Encode.value t x = .ok token) :
    Back o t x token := by
  induction h generalizing token with
  | null t =>
    unfold Encode.value at henc
    cases henc
    exact null_back t
  | named _ ih =>
    rw [Encode.value_alias] at henc
    exact (ih ht henc).named
  | boolean b =>
    cases henc
    exact ScalarBack.back trivial ⟨rfl, rfl, fun _ => .bool b⟩
  | byte v =>
    cases henc
    exact (byte_back v).back trivial
  | short v =>
    cases henc
    exact (short_back v).back trivial
  | integer v =>
    cases henc
    exact (integer_back v).back trivial
  | long v =>
    cases henc
    exact (long_back v).back trivial
  | float hx =>
    cases henc
    exact (float_back hx).back trivial
  | double hx =>
    cases henc
    exact (double_back hx).back trivial
  | decimal d =>
    cases henc
    exact (decimal_back d).back trivial
  | string s =>
    cases henc
    refine ScalarBack.back trivial ⟨rfl, ?_, fun _ => .str s⟩
    simp [isNullFor, DataType.resolve]
  | binary hbytes =>
    cases henc
    exact (binary_back hbytes).back trivial
  | date days => exact (date_back henc).back trivial
  | timestamp micros => exact (timestamp_back henc).back trivial
  | array _ ih => exact array_back (fun v hv token hw => ih v hv ht hw) henc
  | map hkeys _ ih => exact map_back hkeys (fun e he token hw => ih e he ht hw) henc
  | struct hlen _ ih =>
    obtain ⟨hfields, hpairs⟩ := repeated_among_none_iff.mp ht
    have hnames := List.pairwise_map.mpr hpairs
    exact struct_back hlen hnames (fun p hp token hw => ih p hp (hfields p.1 (List.of_mem_zip hp).1).2 hw) henc

end Decode

end TypedRecords
