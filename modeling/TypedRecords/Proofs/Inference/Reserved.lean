import TypedRecords.Proofs.Inference.Unreadable
import TypedRecords.Proofs.Schema.Distinct
/-!
# Names apart from the corrupt column

Where no row of a collection has a key of the corrupt column's name, as names are compared, the fields of its root
are that column and fields with other names. Whether the root has a schema is then up to the other fields.
-/

namespace TypedRecords

namespace DataType

variable {name : String} {fs : List Field}

theorem other_fields_canonical : otherFields name (canonicalFields fs) = canonicalFields (otherFields name fs) := by
  induction fs with
  | nil => rfl
  | cons f fs ih =>
    obtain ⟨n, t, nullable⟩ := f
    by_cases hn : n = name
    · subst hn
      have hout : otherFields n (⟨n, t, nullable⟩ :: fs) = otherFields n fs := by simp [otherFields]
      rw [hout, ← ih, canonicalFields]
      split
      · rfl
      · split
        · simp [otherFields]
        · rfl
    · have hkeep (u : DataType) (gs : List Field) :
          otherFields name (⟨n, u, nullable⟩ :: gs) = ⟨n, u, nullable⟩ :: otherFields name gs := by
        simp [otherFields, hn]
      rw [hkeep, canonicalFields, canonicalFields]
      split
      · exact ih
      · cases t.canonical? with
        | none => exact ih
        | some u =>
          dsimp only
          rw [hkeep, ih]

end DataType

namespace Inference

open DataType

variable {o : Options} {name : String}

/-- The objects that a record gives as rows: itself, or those in its arrays at any depth. -/
inductive RowObject (members : List (String × Json)) : Json → Prop where
  | whole : RowObject members (.obj members)
  | item {items v} : v ∈ items → RowObject members v → RowObject members (.arr items)

/-- No row of a tree has a key that the column's name is taken for when names are compared. -/
def KeysApart (o : Options) (name : String) (v : Json) : Prop :=
  ∀ members, RowObject members v → ∀ m ∈ members,
    Schema.nameKey o.caseSensitive m.1 ≠ Schema.nameKey o.caseSensitive name

def Reserved (o : Options) (name : String) (field : String) (t : DataType) : Prop :=
  field = name ∧ t = .string ∨ Schema.nameKey o.caseSensitive field ≠ Schema.nameKey o.caseSensitive name

def ReservedIn (o : Options) (name : String) (t : DataType) : Prop :=
  ∀ f ∈ structFields (elementType t), Reserved o name f.name f.type

variable {a b : DataType} {fs gs : List Field}

theorem reserved_of_family (h : a.family ≠ .struct) (hflat : a.family ≠ .array) : ReservedIn o name a := by
  intro f hf
  rw [element_type_of_flat hflat, struct_fields_of_family h] at hf
  cases hf

theorem reserved_array {n : Bool} : ReservedIn o name (.array a n) ↔ ReservedIn o name a := Iff.rfl

theorem reserved_struct : ReservedIn o name (.struct fs) ↔ ∀ f ∈ fs, Reserved o name f.name f.type := Iff.rfl

theorem reserved_merge_fields (hf : Regular fs) (hg : Regular gs) (hfs : ReservedIn o name (.struct fs))
    (hgs : ReservedIn o name (.struct gs)) : ReservedIn o name (.struct (mergeFields merge fs gs)) := by
  have hlookup {ks : List Field} (hks : ReservedIn o name (.struct ks)) {m : String} {t : DataType}
      (ht : fieldType? m ks = some t) : Reserved o name m t := by
    obtain ⟨f, hf, rfl, rfl⟩ := field_type_mem ht
    exact hks f hf
  rw [reserved_struct]
  intro f hmem
  rcases merge_fields_mem hf hg hmem with ht | ht | ⟨x, y, hx, hy, hxy⟩
  · exact hlookup hfs ht
  · exact hlookup hgs ht
  -- A name of both structs: two columns of strings merge to a string.
  · rcases hlookup hfs hx with ⟨hname, rfl⟩ | hkey
    · rcases hlookup hgs hy with ⟨-, rfl⟩ | hkey
      · exact Or.inl ⟨hname, by rw [← hxy, merge_self]⟩
      · exact Or.inr hkey
    · exact Or.inr hkey

theorem reserved_merge (ha : a.Plain) (hb : b.Plain) (hra : ReservedIn o name a) (hrb : ReservedIn o name b) :
    ReservedIn o name (merge a b) := by
  have h := merges_to ha.orderly hb.orderly
  generalize merge a b = m at h
  induction h with
  | same => exact hra
  | nullLeft => exact hrb
  | nullRight => exact hra
  | storedLeft => exact absurd ha not_plain_alias
  | storedRight => exact absurd hb not_plain_alias
  | @number a b =>
    have hfam := (number_iff_family _).mp (of_span_number (a.span ⊔ b.span))
    exact reserved_of_family (by simp [hfam]) (by simp [hfam])
  | dateTimestamp | timestampDate | mixed | map => exact reserved_of_family (by simp [family]) (by simp [family])
  | array _ ih => exact ih (plain_array.mp ha) (plain_array.mp hb) hra hrb
  | struct hfs hgs => exact reserved_merge_fields hfs hgs hra hrb

theorem reserved_corrupt (hc : o.corruptColumn = some name) : ReservedIn o name (corruptType o) := by
  rw [corrupt_type_some hc, reserved_struct]
  intro f hf
  rw [List.mem_singleton.mp hf]
  exact Or.inl ⟨rfl, rfl⟩

theorem reserved_elements (hc : o.corruptColumn = some name) (ha : a.Plain) (hb : b.Plain)
    (hra : ReservedIn o name a) (hrb : ReservedIn o name b) : ReservedIn o name (mergeElements o a b) := by
  have hmerge (a b : DataType) (h : a.Plain ∧ ReservedIn o name a) (h' : b.Plain ∧ ReservedIn o name b) :
      (merge a b).Plain ∧ ReservedIn o name (merge a b) :=
    ⟨merge_plain h.1 h'.1, reserved_merge h.1 h'.1 h.2 h'.2⟩
  exact (merge_elements_keeps hmerge ⟨corrupt_type_plain, reserved_corrupt hc⟩ ⟨ha, hra⟩ ⟨hb, hrb⟩).2

theorem type_of_members_keys {members : List (String × Json)} :
    ∀ f ∈ typeOfMembers o members, ∃ m ∈ members, m.1 = f.name := by
  induction members with
  | nil => simp [typeOfMembers]
  | cons m rest ih =>
    obtain ⟨key, v⟩ := m
    intro f hf
    rw [typeOfMembers] at hf
    rcases enter_field_mem hf with hname | hf
    · exact ⟨_, List.mem_cons_self, hname.symm⟩
    · obtain ⟨m, hm, hname⟩ := ih f hf
      exact ⟨m, List.mem_cons_of_mem _ hm, hname⟩

theorem reserved_items {items : List Json} (ih : ∀ v ∈ items, ReservedIn o name (typeOf o v)) {seen : DataType}
    (hs : seen.Plain) (hseen : ReservedIn o name seen) : ReservedIn o name (typeOfItems o seen items) := by
  induction items generalizing seen with
  | nil => exact hseen
  | cons v vs ihs =>
    rw [List.forall_mem_cons] at ih
    have hv := type_of_plain (o := o) v
    exact ihs ih.2 (merge_plain hs hv) (reserved_merge hs hv hseen ih.1)

theorem type_of_number_family (literal : String) : (typeOfNumber o literal).family = .number := by
  unfold typeOfNumber
  dsimp only
  repeat' split
  all_goals rfl

theorem reserved_type_of {v : Json} (h : KeysApart o name v) : ReservedIn o name (typeOf o v) := by
  induction v using Json.induct with
  | null | bool => exact reserved_of_family (by simp [typeOf, family]) (by simp [typeOf, family])
  | num literal =>
    have hfam := type_of_number_family (o := o) literal
    exact reserved_of_family (by simp [typeOf, hfam]) (by simp [typeOf, hfam])
  | str s =>
    rw [typeOf, typeOfString]
    repeat' split
    all_goals exact reserved_of_family (by simp [family]) (by simp [family])
  | arr items ih =>
    rw [typeOf, reserved_array]
    refine reserved_items ?_ trivial (reserved_of_family (by simp [family]) (by simp [family]))
    intro v hv
    exact ih v hv fun members hrow => h members (.item hv hrow)
  | obj members =>
    rw [typeOf, reserved_struct]
    intro f hf
    obtain ⟨m, hm, hname⟩ := type_of_members_keys f hf
    rw [← hname]
    exact Or.inr (h members .whole m hm)

theorem reserved_root (hc : o.corruptColumn = some name) {records : List String}
    (hkeys : ∀ text ∈ records, ∀ v, Json.ofText? text = some v → KeysApart o name v) :
    ReservedIn o name (records.toFinset.sup (RootType.ofRecord o)).type := by
  refine Finset.sup_induction (p := fun root : RootType o => ReservedIn o name root.type) ?_ ?_ ?_
  · exact reserved_of_family (by simp [family]) (by simp [family])
  · intro a ha b hb
    rw [RootType.sup_type]
    exact reserved_elements hc a.plain b.plain ha hb
  · intro text hm
    have hrecord : ReservedIn o name (typeOfRecord o text) := by
      rw [typeOfRecord]
      split
      · next v hv => exact reserved_type_of (hkeys text (List.mem_toFinset.mp hm) v hv)
      · exact reserved_corrupt hc
    intro f hf
    rw [element_type_of_flat (RootType.flat _)] at hf
    exact hrecord f hf

theorem apart_of_reserved {root : RootType o} (h : ReservedIn o name root.type) :
    ApartIn (Schema.nameKey o.caseSensitive) name (canonicalFields (structFields root.type)) := by
  intro f hf
  obtain ⟨g, hg, hname, -, hcanonical⟩ := canonical_fields_mem hf
  rw [← hname]
  rw [ReservedIn, element_type_of_flat root.flat] at h
  rcases h g hg with ⟨hcolumn, ht⟩ | hkey
  · rw [ht] at hcanonical
    exact Or.inl ⟨hcolumn, by rw [← Option.some.inj hcanonical]; rfl⟩
  · exact Or.inr hkey

theorem other_fields_of_root {root : RootType o} {s : Schema} (h : schemaOfRoot o root.type = .ok s) :
    otherFields name s.fields = canonicalFields (otherFields name (structFields root.type)) := by
  rw [schema_of_root_eq] at h
  rw [(Schema.of_fields_ok_iff.mp h).1, other_fields_canonical]

theorem schema_of_reserved {root : RootType o} (h : ReservedIn o name root.type) :
    (∃ s, schemaOfRoot o root.type = .ok s) ↔
      repeatedAmong? (Schema.nameKey o.caseSensitive) []
        (canonicalFields (otherFields name (structFields root.type))) = none := by
  have hdistinct := (canonical_fields_regular (struct_fields_regular root.plain)).distinct
  rw [schema_of_root_eq, ← other_fields_canonical, repeated_among_other hdistinct (apart_of_reserved h)]
  exact Schema.of_fields_exists

end Inference

end TypedRecords
