import TypedRecords.Proofs.Inference.Corrupt
import TypedRecords.Proofs.Json.RoundTrip
import TypedRecords.Proofs.Row.Typed
/-!
# Observed scalars are kept

A path of keys and positions leads from an object to a scalar. The type of the object's record is within the root
type, so at each step the schema either has a string, which keeps all that is below it as text, or goes the same
step, and at the end of the path the scalar is read as a value that is not null.
-/

namespace TypedRecords

inductive Json.Step where
  | key (name : String)
  | index (position : Nat)
  deriving DecidableEq, Repr

namespace Json

def follow? (v : Json) : List Step → Option Json
  | [] => some v
  | .key name :: path =>
    match v with
    | .obj members => (member? members name).bind (follow? · path)
    | _ => none
  | .index i :: path =>
    match v with
    | .arr items => items[i]?.bind (follow? · path)
    | _ => none

variable {v leaf : Json} {path : List Step}

theorem follow_key {name : String} (h : v.follow? (.key name :: path) = some leaf) :
    ∃ members w, v = .obj members ∧ member? members name = some w ∧ w.follow? path = some leaf := by
  cases v with
  | obj members =>
    obtain ⟨w, hw, hpath⟩ := Option.bind_eq_some_iff.mp h
    exact ⟨members, w, rfl, hw, hpath⟩
  | _ => cases h

theorem follow_index {i : Nat} (h : v.follow? (.index i :: path) = some leaf) :
    ∃ items w, v = .arr items ∧ items[i]? = some w ∧ w.follow? path = some leaf := by
  cases v with
  | arr items =>
    obtain ⟨w, hw, hpath⟩ := Option.bind_eq_some_iff.mp h
    exact ⟨items, w, rfl, hw, hpath⟩
  | _ => cases h

end Json

namespace Decode

open DataType
open Json (Step)

variable {o : Options} {s : Schema} {t : DataType} {v : Json} {members : List (String × Json)}

/-- A value of a type keeps something at a path: the path ends at a value that is not null, or it passes a string
of type `string` before its end. -/
inductive Kept : DataType → Value → List Step → Prop where
  | ends {t x} (hx : x ≠ .null) : Kept t x []
  | text (s : String) (step : Step) (path : List Step) : Kept .string (.string s) (step :: path)
  | field {fs : List Field} {row : List Value} {i : Nat} {f : Field} {x : Value} {path : List Step}
      (hf : fs[i]? = some f) (hx : row[i]? = some x) (h : Kept f.type x path) :
      Kept (.struct fs) (.struct row) (.key f.name :: path)
  | item {e : DataType} {n : Bool} {items : List Value} {i : Nat} {x : Value} {path : List Step}
      (hx : items[i]? = some x) (h : Kept e x path) : Kept (.array e n) (.array items) (.index i :: path)

def rowObjects : Json → List (List (String × Json))
  | .obj members => [members]
  | .arr items =>
    if items.all isRowToken then
      items.filterMap fun v => match v with
        | .obj members => some members
        | _ => none
    else []
  | _ => []

theorem row_objects_cases (h : members ∈ rowObjects v) : v = .obj members ∨
    ∃ items, v = .arr items ∧ items.all isRowToken = true ∧ .obj members ∈ items := by
  cases v with
  | obj ms =>
    rw [List.mem_singleton.mp h]
    exact Or.inl rfl
  | arr items =>
    refine Or.inr ⟨items, rfl, ?_⟩
    rw [rowObjects] at h
    split at h
    · next hall =>
      obtain ⟨w, hw, hobj⟩ := List.mem_filterMap.mp h
      cases w <;> cases hobj
      exact ⟨hall, hw⟩
    · contradiction
  | _ => contradiction

theorem record_row {text : String} (hv : Json.ofText? text = some v) {rows : List Row}
    (h : record s o text = .ok rows) {i : Nat} (hi : (rowObjects v)[i]? = some members) :
    ∃ row, rows[i]? = some row ∧ fields o s.fields members = .ok row := by
  cases v with
  | obj ms =>
    rw [record_object hv] at h
    obtain ⟨row, hrow, rfl⟩ := map_ok_inv h
    cases i with
    | zero =>
      obtain rfl := Option.some.inj hi
      exact ⟨row, rfl, hrow⟩
    | succ i => cases hi
  | arr items =>
    by_cases hall : items.all isRowToken = true
    · rw [record_elements hv hall] at h
      rw [rowObjects, if_pos hall] at hi
      exact map_m_getElem h hi
    · rw [rowObjects, if_neg hall] at hi
      contradiction
  | _ => contradiction

theorem kept_string (hn : isNullFor o .string v = false) {x : Value} (h : value o .string v = .ok x)
    (step : Step) (path : List Step) : Kept .string x (step :: path) := by
  have hscalar : IsScalar .string := trivial
  rw [value_scalar hscalar hn] at h
  cases v <;> cases h <;> exact .text _ step path

end Decode

namespace Inference

open DataType Decode
open Json (Step Settled)

variable {o : Options} {t : DataType} {v : Json} {path : List Step}

def Observed (o : Options) : Json → Prop
  | .bool _ => True
  | .num _ => True
  | .str s => s = "" → o.emptyStringAsNull = false
  | _ => False

theorem observed_not_null (h : Observed o v) : isNullFor o t v = false := by
  cases v with
  | str s =>
    by_cases hs : s = ""
    · simp [isNullFor, h hs]
    · simp [isNullFor, String.isEmpty_iff, hs]
  | _ => first | rfl | contradiction

theorem observed_family (hv : Settled v) (h : Observed o v) :
    (typeOf o v).family ∈ [Family.boolean, .number, .temporal, .string] := by
  cases hv with
  | bool b => simp [typeOf, DataType.family]
  | num n =>
    have hspec : NumberType _ (typeOf o (.num (String.ofList n.chars))) := number_type n
    generalize typeOf o (.num (String.ofList n.chars)) = t at hspec
    cases hspec <;> simp [DataType.family]
  | str s =>
    have hspec : StringType o s (typeOf o (.str s)) := string_type s
    generalize typeOf o (.str s) = t at hspec
    cases hspec with
    | null hs hnull =>
      rw [h (String.isEmpty_iff.mp hs)] at hnull
      contradiction
    | _ => simp [DataType.family]
  | _ => contradiction

theorem observed_canonical (hv : Settled v) (h : Observed o v) (ht : t.Plain) (hw : Within (typeOf o v) t) :
    ∃ u, t.canonical? = some u := by
  have hfamily := observed_family hv h
  have hnull : typeOf o v ≠ .null := by
    intro hn
    simp [hn, DataType.family] at hfamily
  rcases hw.family (type_of_plain v) ht hnull with rfl | hfam
  · exact ⟨_, rfl⟩
  · rw [← hfam] at hfamily
    cases t <;> simp [DataType.family] at hfamily <;> exact ⟨_, rfl⟩

theorem field_kept {gs : List Field} (hg : Plain (.struct gs)) {members : List (String × Json)} {name : String}
    (hname : name ≠ "") {u : DataType} (hm : Json.member? members name = some v)
    (ht : fieldType? name gs = some t) (hu : t.canonical? = some u)
    (hkept : ∀ x, value o u v = .ok x → Kept u x path) :
    ∃ u, canonical? (.struct gs) = some u ∧
      ∀ x, value o u (.obj members) = .ok x → Kept u x (.key name :: path) := by
  have hregular := (plain_struct.mp hg).1
  obtain ⟨f, hf, rfl⟩ := canonical_field_mem hname ht hu
  obtain ⟨t', ht', hu'⟩ := canonical_field_type hregular hf
  obtain rfl := Option.some.inj (ht.symm.trans ht')
  obtain rfl := Option.some.inj (hu.symm.trans hu')
  refine ⟨.struct (canonicalFields gs), ?_, ?_⟩
  · rw [canonical?]
    split
    · next hempty => simp [hempty] at hf
    · next heq => rw [heq]
  · intro x hx
    rcases value_struct_inv hx with rfl | ⟨ms, row, hms, hrow, rfl⟩
    · exact absurd (value_null_inv hx) (by simp [isNullFor])
    · obtain rfl := Json.obj.inj hms
      obtain ⟨i, hi⟩ := List.mem_iff_getElem?.mp hf
      obtain ⟨y, hy, hvalue⟩ := fields_at hrow hi hm
      exact .field hi hy (hkept y hvalue)

theorem item_kept {e u : DataType} {n : Bool} {items : List Json} {i : Nat} (hi : items[i]? = some v)
    (hu : e.canonical? = some u) (hkept : ∀ x, value o u v = .ok x → Kept u x path) :
    ∃ u, canonical? (.array e n) = some u ∧
      ∀ x, value o u (.arr items) = .ok x → Kept u x (.index i :: path) := by
  refine ⟨.array u n, by rw [canonical?, hu]; rfl, ?_⟩
  intro x hx
  rcases value_array_inv hx with rfl | ⟨ws, xs, hws, hxs, rfl⟩ | ⟨members, y, hws, -, rfl⟩
  · exact absurd (value_null_inv hx) (by simp [isNullFor])
  · obtain rfl := Json.arr.inj hws
    obtain ⟨y, hy, hvalue⟩ := map_m_getElem hxs hi
    exact .item hy (hkept y hvalue)
  · -- Only an object is wrapped into an array of one.
    cases hws

/-- Every value of a tree under a type above its own keeps what the tree has at the end of a path. -/
theorem kept_of_within (hv : Settled v) (ht : t.Plain) (hw : Within (typeOf o v) t) {leaf : Json}
    (hnamed : Step.key "" ∉ path) (hpath : v.follow? path = some leaf) (hleaf : Observed o leaf) :
    ∃ u, t.canonical? = some u ∧ ∀ x, value o u v = .ok x → Kept u x path := by
  -- That the type has a canonical form is part of the induction: what holds an observed scalar is never left out.
  induction path generalizing v t with
  | nil =>
    obtain rfl := Option.some.inj hpath
    obtain ⟨u, hu⟩ := observed_canonical hv hleaf ht hw
    refine ⟨u, hu, fun x hx => .ends ?_⟩
    rintro rfl
    have hn := value_null_inv hx
    rw [observed_not_null hleaf] at hn
    contradiction
  | cons step path ih =>
    rw [List.mem_cons, not_or] at hnamed
    cases step with
    | key name =>
      obtain ⟨members, w, rfl, hmember, hpath⟩ := Json.follow_key hpath
      rcases within_struct hw (type_of_members_plain members) ht with rfl | ⟨gs, rfl⟩
      · exact ⟨.string, rfl, fun x hx => kept_string rfl hx _ path⟩
      cases hv with
      | obj hn hmembers =>
        have hmem := Json.mem_of_member hmember
        obtain ⟨t, htype, hwithin⟩ := hw.field (plain_struct.mp (type_of_members_plain members)).1
          (plain_struct.mp ht).1 (type_of_members_type hn hmem)
        obtain ⟨u, hu, hkept⟩ := ih (hmembers _ hmem) (plain_field ht htype) hwithin hnamed.2 hpath
        exact field_kept ht (fun hempty => hnamed.1 (hempty ▸ rfl)) hmember htype hu hkept
    | index i =>
      obtain ⟨items, w, rfl, hitem, hpath⟩ := Json.follow_index hpath
      have hplain := type_of_items_plain (o := o) items (show Plain .null from trivial)
      rcases within_array hw hplain ht with rfl | ⟨e, n, rfl, he⟩
      · exact ⟨.string, rfl, fun x hx => kept_string rfl hx _ path⟩
      cases hv with
      | arr hitems =>
        have hmem := List.mem_of_getElem? hitem
        have hwithin := within_trans (type_of_plain w) hplain (plain_array.mp ht)
          (item_within (show Plain .null from trivial) hmem) he
        obtain ⟨u, hu, hkept⟩ := ih (hitems w hmem) (plain_array.mp ht) hwithin hnamed.2 hpath
        exact item_kept hitem hu hkept

theorem row_object_within {root : RootType o} {members : List (String × Json)} (h : members ∈ rowObjects v)
    (habove : mergeElements o (elementType (typeOf o v)) root.type = root.type) :
    ∃ gs, root.type = .struct gs ∧ Within (typeOf o (.obj members)) root.type := by
  rcases row_objects_cases h with rfl | ⟨items, rfl, hrows, hmem⟩
  · obtain ⟨gs, hgs, hwithin⟩ := within_root (type_of_plain _) rfl habove
    exact ⟨gs, hgs, hgs ▸ hwithin⟩
  · exact row_item_within hrows habove hmem

theorem row_object_settled {members : List (String × Json)} (h : members ∈ rowObjects v) (hv : Settled v) :
    Settled (.obj members) := by
  rcases row_objects_cases h with rfl | ⟨items, rfl, -, hmem⟩
  · exact hv
  · cases hv with
    | arr hitems => exact hitems _ hmem

/-- In the row of each object there is something at each path of named members and positions to a scalar that
inference takes notice of. -/
theorem observed_kept (hs : Options.samplingLimit.less o.samplingRatio = true) {records : List String}
    {s : Schema} (h : inferSchema o records = .ok s) {text : String} (hm : text ∈ records)
    (hv : Json.ofText? text = some v) :
    ∃ rows, record s o text = .ok rows ∧ ∀ (i : Nat) (members : List (String × Json)),
      (rowObjects v)[i]? = some members → ∃ row, rows[i]? = some row ∧ ∀ (path : List Step) (leaf : Json),
        Step.key "" ∉ path → (Json.obj members).follow? path = some leaf → Observed o leaf →
          Kept s.toType (.struct row) path := by
  obtain ⟨rows, hrows, -⟩ := infer_schema_sound hs h hm
  refine ⟨rows, hrows, ?_⟩
  intro i members hi
  obtain ⟨row, hrow, hfields⟩ := record_row hv hrows hi
  refine ⟨row, hrow, ?_⟩
  intro path leaf hnamed hpath hleaf
  rw [infer_schema_all (validate_of_infer h) hs] at h
  obtain ⟨root, hroot, habove⟩ := root_above (o := o) hm
  rw [hroot] at h
  have htype : typeOfRecord o text = typeOf o v := by rw [typeOfRecord, hv]
  rw [htype] at habove
  have hmem := List.mem_of_getElem? hi
  obtain ⟨gs, hgs, hwithin⟩ := row_object_within hmem habove
  obtain ⟨u, hu, hkept⟩ := kept_of_within (row_object_settled hmem (Json.of_text_settled hv)) root.plain hwithin
    hnamed hpath hleaf
  rw [hgs] at h hu
  obtain ⟨rfl, -⟩ := canonical_struct hu
  rw [Schema.toType, schema_of_struct h]
  apply hkept
  rw [← schema_of_struct h]
  unfold value
  simp [isNullFor, hfields, Except.map]

/-- An object that becomes text beside a string, and an item that is merged with a string. -/
theorem observed_kept_beside_strings :
    let token : Json := .arr [.null, .obj [("a", .obj [("k", .bool true)]), ("b", .arr [.null, .bool false])]]
    let records := [token.compact, "\x7b\"a\":\"x\",\"b\":[\"y\"]\x7d"]
    let s : Schema := ⟨[⟨"a", .string, true⟩, ⟨"b", .array .string true, true⟩], rfl⟩
    Options.samplingLimit.less ({} : Options).samplingRatio = true ∧ inferSchema {} records = .ok s ∧
      token.compact ∈ records ∧ Json.ofText? token.compact = some token ∧
      ∃ rows, record s {} token.compact = .ok rows ∧ ∃ row, rows[0]? = some row ∧
        Kept s.toType (.struct row) [.key "a", .key "k"] ∧ Kept s.toType (.struct row) [.key "b", .index 1] := by
  intro token records s
  have hformed (p : List String → Prop) (hrow : p ["a", "b"]) (hkey : p ["k"]) : Json.Formed p token := by
    refine .arr ?_
    simp only [List.forall_mem_cons]
    refine ⟨.null, .obj hrow ?_, by simp⟩
    simp only [List.forall_mem_cons]
    exact ⟨.obj hkey (by simpa using .bool true), .arr (by simpa using ⟨.null, .bool false⟩), by simp⟩
  have hv := Json.of_text_compact (hformed _ (by decide) (by decide)) (hformed _ (by decide) (by decide)) (by decide)
  have h : inferSchema {} records = .ok s := by
    rw [infer_schema_all default_valid default_unsampled]
    decide +kernel
  have hm : token.compact ∈ records := List.mem_cons_self
  obtain ⟨rows, hrows, hkept⟩ := observed_kept default_unsampled h hm hv
  obtain ⟨row, hrow, hpaths⟩ := hkept 0 _ rfl
  refine ⟨default_unsampled, h, hm, hv, rows, hrows, row, hrow, ?_, ?_⟩
  · exact hpaths _ (.bool true) (by decide) rfl trivial
  · exact hpaths _ (.bool false) (by decide) rfl trivial

end Inference

end TypedRecords
