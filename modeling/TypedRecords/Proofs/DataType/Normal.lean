import TypedRecords.Proofs.DataType.Canonical
import TypedRecords.Proofs.DataType.Merging
/-!
# Canonical forms are normal forms

What the canonical form of a type leaves out and what it keeps. It is a type in which nothing is left to be taken out,
and merging makes only such types of two of them.
-/

namespace TypedRecords.DataType

mutual

/-- Outside of aliases there is no `null`, no field without a name and no struct without fields. -/
def Normal : DataType → Prop
  | .null => False
  | .array e _ => e.Normal
  | .map v _ => v.Normal
  | .struct fs => fs ≠ [] ∧ NormalFields fs
  | _ => True

def NormalFields : List Field → Prop
  | [] => True
  | ⟨name, t, _⟩ :: fs => (name ≠ "" ∧ t.Normal) ∧ NormalFields fs

end

/-- Nothing remains of these types: structs whose named fields are hollow, and what holds a hollow type. -/
inductive Hollow : DataType → Prop where
  | array {e n} : Hollow e → Hollow (.array e n)
  | map {v n} : Hollow v → Hollow (.map v n)
  | struct {fs} : (∀ f ∈ fs, f.name ≠ "" → Hollow f.type) → Hollow (.struct fs)

mutual

/-- The second type is the first one without fields that have no name or a hollow type, and with `string` for `null`.
Everything else is as it was: the order, the names and the flags of the fields, and the flags of arrays and maps. -/
inductive Trims : DataType → DataType → Prop where
  | null : Trims .null .string
  | array {e u n} : Trims e u → Trims (.array e n) (.array u n)
  | map {v u n} : Trims v u → Trims (.map v n) (.map u n)
  | struct {fs gs} : TrimsFields fs gs → Trims (.struct fs) (.struct gs)
  | leaf {t} : t.family ∉ [.null, .array, .map, .struct] → Trims t t

inductive TrimsFields : List Field → List Field → Prop where
  | nil : TrimsFields [] []
  | keep {name t u nullable fs gs} : name ≠ "" → Trims t u → TrimsFields fs gs →
      TrimsFields (⟨name, t, nullable⟩ :: fs) (⟨name, u, nullable⟩ :: gs)
  | drop {f fs gs} : (f.name ≠ "" → Hollow f.type) → TrimsFields fs gs → TrimsFields (f :: fs) gs

end

variable {t u a b m : DataType} {fs gs : List Field}

theorem normal_fields_iff : NormalFields fs ↔ ∀ f ∈ fs, f.name ≠ "" ∧ f.type.Normal := by
  induction fs with
  | nil => simp [NormalFields]
  | cons f fs ih => simp [NormalFields, ih]

section Erasure

mutual

theorem hollow_of_none : (t : DataType) → t.canonical? = none → Hollow t
  | .array e _, h => .array (hollow_of_none e (Option.map_eq_none_iff.mp h))
  | .map v _, h => .map (hollow_of_none v (Option.map_eq_none_iff.mp h))
  | .struct fs, h => by
    rw [canonical?] at h
    split at h
    · next hnil => exact .struct (hollow_of_nil fs hnil)
    · contradiction
  | .null, h | .string, h | .boolean, h | .byte, h | .short, h | .integer, h | .long, h | .float, h
  | .double, h | .decimal _ _, h | .date, h | .timestamp, h | .binary, h | .alias _ _, h => by
    contradiction

theorem hollow_of_nil : (fs : List Field) → canonicalFields fs = [] → ∀ f ∈ fs, f.name ≠ "" → Hollow f.type
  | [], _ => by simp
  | ⟨name, t, nullable⟩ :: fs, h => by
    rw [canonicalFields] at h
    rw [List.forall_mem_cons]
    split at h
    · next hname => exact ⟨absurd hname, hollow_of_nil fs h⟩
    · split at h
      · contradiction
      · next hnone => exact ⟨fun _ => hollow_of_none t hnone, hollow_of_nil fs h⟩

end

theorem canonical_fields_nil (h : ∀ f ∈ fs, f.name ≠ "" → f.type.canonical? = none) : canonicalFields fs = [] := by
  cases hfields : canonicalFields fs with
  | nil => rfl
  | cons g gs =>
    obtain ⟨f, hf, -, hname, htype⟩ := canonical_fields_mem (hfields ▸ List.mem_cons_self : g ∈ canonicalFields fs)
    rw [h f hf hname] at htype
    contradiction

theorem canonical_none_iff : t.canonical? = none ↔ Hollow t := by
  constructor
  · exact hollow_of_none t
  · intro h
    induction h with
    | array _ ih => rw [canonical?, ih, Option.map_none]
    | map _ ih => rw [canonical?, ih, Option.map_none]
    | struct _ ih => rw [canonical?, canonical_fields_nil ih]

end Erasure

section Forms

mutual

theorem canonical_trims : (t : DataType) → ∀ {u : DataType}, t.canonical? = some u → Trims t u ∧ u.Normal
  | .array e _, _, h => by
    obtain ⟨e', he, rfl⟩ := Option.map_eq_some_iff.mp h
    obtain ⟨htrims, hnormal⟩ := canonical_trims e he
    exact ⟨.array htrims, hnormal⟩
  | .map v _, _, h => by
    obtain ⟨v', hv, rfl⟩ := Option.map_eq_some_iff.mp h
    obtain ⟨htrims, hnormal⟩ := canonical_trims v hv
    exact ⟨.map htrims, hnormal⟩
  | .struct fs, _, h => by
    obtain ⟨rfl, hne⟩ := canonical_struct h
    obtain ⟨htrims, hnormal⟩ := canonical_fields_trims fs
    exact ⟨.struct htrims, hne, hnormal⟩
  | .null, _, h => by
    obtain rfl := Option.some.inj h
    exact ⟨.null, trivial⟩
  | .string, _, h | .boolean, _, h | .byte, _, h | .short, _, h | .integer, _, h | .long, _, h | .float, _, h
  | .double, _, h | .decimal _ _, _, h | .date, _, h | .timestamp, _, h | .binary, _, h | .alias _ _, _, h => by
    obtain rfl := Option.some.inj h
    exact ⟨.leaf (by simp [family]), trivial⟩

theorem canonical_fields_trims :
    (fs : List Field) → TrimsFields fs (canonicalFields fs) ∧ NormalFields (canonicalFields fs)
  | [] => ⟨.nil, trivial⟩
  | ⟨name, t, nullable⟩ :: fs => by
    obtain ⟨htrims, hnormal⟩ := canonical_fields_trims fs
    rw [canonicalFields]
    split
    · next hname => exact ⟨.drop (absurd hname) htrims, hnormal⟩
    · next hname =>
      split
      · next u hu =>
        obtain ⟨htype, hu⟩ := canonical_trims t hu
        exact ⟨.keep hname htype htrims, ⟨hname, hu⟩, hnormal⟩
      · next hnone => exact ⟨.drop (fun _ => canonical_none_iff.mp hnone) htrims, hnormal⟩

end

mutual

theorem normal_canonical : (t : DataType) → t.Normal → t.canonical? = some t
  | .array e _, h => by rw [canonical?, normal_canonical e h, Option.map_some]
  | .map v _, h => by rw [canonical?, normal_canonical v h, Option.map_some]
  | .struct fs, h => by
    rw [canonical?, normal_canonical_fields fs h.2]
    cases fs with
    | nil => exact absurd rfl h.1
    | cons f fs => rfl
  | .null, h => h.elim
  | .string, _ | .boolean, _ | .byte, _ | .short, _ | .integer, _ | .long, _ | .float, _ | .double, _
  | .decimal _ _, _ | .date, _ | .timestamp, _ | .binary, _ | .alias _ _, _ => rfl

theorem normal_canonical_fields : (fs : List Field) → NormalFields fs → canonicalFields fs = fs
  | [], _ => rfl
  | ⟨name, t, nullable⟩ :: fs, ⟨⟨hname, ht⟩, hfs⟩ => by
    rw [canonicalFields, if_neg hname, normal_canonical t ht, normal_canonical_fields fs hfs]

end

theorem normal_iff_canonical : t.Normal ↔ t.canonical? = some t := by
  constructor
  · exact normal_canonical t
  · intro h
    exact (canonical_trims t h).2

end Forms

section Merging

theorem number_normal (h : t.isNumber = true) : t.Normal := by
  cases t <;> trivial

theorem normal_field {name : String} (h : Normal (.struct fs)) (ht : fieldType? name fs = some t) :
    name ≠ "" ∧ t.Normal := by
  obtain ⟨f, hf, rfl, rfl⟩ := field_type_mem ht
  exact normal_fields_iff.mp h.2 f hf

theorem merge_fields_ne_nil (hfs : Regular fs) (hgs : Regular gs) (h : fs ≠ []) : mergeFields merge fs gs ≠ [] := by
  obtain ⟨f, hf⟩ := List.exists_mem_of_ne_nil fs h
  intro hnil
  have htype : fieldType? f.name (mergeFields merge fs gs) = _ := merge_fields_type hfs hgs f.name
  rw [hnil, hfs.mem_type hf] at htype
  cases hg : fieldType? f.name gs <;> simp [hg] at htype

theorem MergesTo.normal (h : MergesTo a b m) (ha : a.Plain) (hb : b.Plain) (hna : a.Normal) (hnb : b.Normal) :
    m.Normal := by
  induction h with
  | same => exact hna
  | nullLeft => exact hnb
  | nullRight => exact hna
  | storedLeft => exact absurd ha not_plain_alias
  | storedRight => exact absurd hb not_plain_alias
  | number => exact number_normal (of_span_number _)
  | dateTimestamp | timestampDate | mixed => trivial
  | array _ ih => exact ih (plain_array.mp ha) (plain_array.mp hb) hna hnb
  | map _ ih => exact ih (plain_map.mp ha) (plain_map.mp hb) hna hnb
  | struct hfs hgs _ ih =>
    refine ⟨merge_fields_ne_nil hfs hgs hna.1, normal_fields_iff.mpr ?_⟩
    intro f hf
    rcases merge_fields_mem hfs hgs hf with ht | ht | ⟨x, y, hx, hy, hxy⟩
    · exact normal_field hna ht
    · exact normal_field hnb ht
    · obtain ⟨hname, hnx⟩ := normal_field hna hx
      obtain ⟨-, hny⟩ := normal_field hnb hy
      rw [← hxy]
      exact ⟨hname, ih _ x y hx hy (plain_field ha hx) (plain_field hb hy) hnx hny⟩

theorem merge_normal (ha : a.Plain) (hb : b.Plain) (hna : a.Normal) (hnb : b.Normal) : (merge a b).Normal :=
  (merges_to ha.orderly hb.orderly).normal ha hb hna hnb

/-- A canonical form is normal, is the type trimmed to what is not hollow, and is its own canonical form; only of a
hollow type nothing remains. Plain types that are normal merge to a normal type. -/
theorem canonical_normal_form :
    (∀ t u : DataType, t.canonical? = some u → u.Normal ∧ Trims t u ∧ u.canonical? = some u) ∧
    (∀ t : DataType, t.canonical? = none ↔ Hollow t) ∧
    (∀ t : DataType, t.Normal ↔ t.canonical? = some t) ∧
    ∀ a b : DataType, a.Plain → b.Plain → a.Normal → b.Normal →
      (merge a b).Normal ∧ (merge a b).canonical? = some (merge a b) := by
  refine ⟨?_, ?_, ?_, ?_⟩
  · intro t u h
    obtain ⟨htrims, hnormal⟩ := canonical_trims t h
    exact ⟨hnormal, htrims, normal_iff_canonical.mp hnormal⟩
  · intro t
    exact canonical_none_iff
  · intro t
    exact normal_iff_canonical
  · intro a b ha hb hna hnb
    have hnormal := merge_normal ha hb hna hnb
    exact ⟨hnormal, normal_iff_canonical.mp hnormal⟩

/-- The first two fields of `t` are left out: one has no name, and the map of the other holds structs of nameless
fields only. The alias of `null` stays. The field `x` of `a` and `b` becomes a string. -/
theorem canonical_normal_form_nested :
    let t := struct [⟨"", .long, true⟩, ⟨"gone", .map (.array (.struct [⟨"", .null, true⟩]) false) true, true⟩,
      ⟨"kept", .alias "Unit" .null, false⟩, ⟨"xs", .array .null false, true⟩]
    let u := struct [⟨"kept", .alias "Unit" .null, false⟩, ⟨"xs", .array .string false, true⟩]
    let a := struct [⟨"x", .struct [⟨"y", .date, true⟩], true⟩]
    let b := struct [⟨"x", .array .byte true, true⟩, ⟨"z", .map .float false, true⟩]
    let m := struct [⟨"x", .string, true⟩, ⟨"z", .map .float false, true⟩]
    (t.canonical? = some u ∧ u.Normal ∧ Trims t u ∧ u.canonical? = some u) ∧
      (canonical? (.map (.array (.struct [⟨"", .null, true⟩]) false) true) = none ∧
        Hollow (.map (.array (.struct [⟨"", .null, true⟩]) false) true)) ∧
      (a.Plain ∧ b.Plain ∧ a.Normal ∧ b.Normal) ∧ merge a b = m ∧ m.Normal ∧ m.canonical? = some m := by
  intro t u a b m
  obtain ⟨hform, hhollow, hnormal, hmerge⟩ := canonical_normal_form
  have ht : t.canonical? = some u := rfl
  have hnone : canonical? (.map (.array (.struct [⟨"", .null, true⟩]) false) true) = none := rfl
  have hy : (struct [⟨"y", .date, true⟩]).Plain :=
    plain_struct.mpr ⟨regular_nil.cons (by simp), List.forall_mem_singleton.mpr trivial⟩
  have ha : a.Plain := plain_struct.mpr ⟨regular_nil.cons (by simp), List.forall_mem_singleton.mpr hy⟩
  have hb : b.Plain := by
    refine plain_struct.mpr ⟨(regular_nil.cons (by simp)).cons (by decide +kernel), ?_⟩
    exact List.forall_mem_cons.mpr ⟨⟨trivial, trivial⟩, List.forall_mem_singleton.mpr ⟨trivial, trivial⟩⟩
  have hna : a.Normal := (hnormal a).mpr rfl
  have hnb : b.Normal := (hnormal b).mpr rfl
  have hm : merge a b = m := by decide +kernel
  exact ⟨⟨ht, hform t u ht⟩, ⟨hnone, (hhollow _).mp hnone⟩, ⟨ha, hb, hna, hnb⟩, hm, hm ▸ hmerge a b ha hb hna hnb⟩

end Merging

end TypedRecords.DataType
