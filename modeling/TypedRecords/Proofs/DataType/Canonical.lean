import TypedRecords.DataType.Canonical
import TypedRecords.Proofs.DataType.Plain
/-!
# Canonical forms of plain types

The canonical form of a plain type keeps its shape: a field of it comes from a named field of that type.
-/

namespace TypedRecords.DataType

variable {t u : DataType} {fs gs : List Field}

theorem canonical_resolve (ht : t.Plain) (h : t.canonical? = some u) : u.resolve = u := by
  cases t with
  | «alias» => exact absurd ht not_plain_alias
  | array e n =>
    obtain ⟨e', -, rfl⟩ := Option.map_eq_some_iff.mp h
    rfl
  | map v n =>
    obtain ⟨v', -, rfl⟩ := Option.map_eq_some_iff.mp h
    rfl
  | struct fs =>
    rw [canonical?] at h
    split at h
    · contradiction
    · obtain rfl := Option.some.inj h
      rfl
  | _ =>
    obtain rfl := Option.some.inj h
    rfl

theorem canonical_fields_mem {g : Field} (h : g ∈ canonicalFields fs) :
    ∃ f ∈ fs, f.name = g.name ∧ f.name ≠ "" ∧ f.type.canonical? = some g.type := by
  induction fs with
  | nil => simp [canonicalFields] at h
  | cons f fs ih =>
    obtain ⟨name, t, nullable⟩ := f
    have hrest (hg : g ∈ canonicalFields fs) :
        ∃ f ∈ ⟨name, t, nullable⟩ :: fs, f.name = g.name ∧ f.name ≠ "" ∧ f.type.canonical? = some g.type := by
      obtain ⟨f, hf, hf'⟩ := ih hg
      exact ⟨f, List.mem_cons_of_mem _ hf, hf'⟩
    rw [canonicalFields] at h
    split at h
    · exact hrest h
    · next hname =>
      split at h
      · next u hu =>
        rcases List.mem_cons.mp h with rfl | hg
        · exact ⟨_, List.mem_cons_self, rfl, hname, hu⟩
        · exact hrest hg
      · exact hrest h

theorem canonical_fields_regular (hfs : Regular fs) : Regular (canonicalFields fs) := by
  induction fs with
  | nil => exact regular_nil
  | cons f fs ih =>
    have hrest := ih hfs.tail
    have hlt : ∀ g ∈ canonicalFields fs, f.name < g.name := by
      intro g hg
      obtain ⟨f', hf', hname, -⟩ := canonical_fields_mem hg
      rw [← hname]
      exact hfs.head_lt f' hf'
    have hnull := hfs.nullable f List.mem_cons_self
    obtain ⟨name, t, nullable⟩ := f
    obtain rfl : nullable = true := hnull
    rw [canonicalFields]
    split
    · exact hrest
    · split
      · exact hrest.cons hlt
      · exact hrest

def structFields : DataType → List Field
  | .struct fs => fs
  | _ => []

theorem struct_fields_of_family (h : t.family ≠ .struct) : structFields t = [] := by
  cases t <;> first | contradiction | rfl

theorem struct_fields_regular (h : t.Plain) : Regular (structFields t) := by
  cases t with
  | struct fs => exact (plain_struct.mp h).1
  | _ => exact regular_nil

theorem canonical_field_type (hfs : Regular fs) {g : Field} (hg : g ∈ canonicalFields fs) :
    ∃ t, fieldType? g.name fs = some t ∧ t.canonical? = some g.type := by
  obtain ⟨f, hf, hname, -, ht⟩ := canonical_fields_mem hg
  exact ⟨f.type, hname ▸ hfs.mem_type hf, ht⟩

theorem canonical_struct (h : canonical? (.struct fs) = some u) :
    u = .struct (canonicalFields fs) ∧ canonicalFields fs ≠ [] := by
  rw [canonical?] at h
  split at h
  · contradiction
  · next g gs heq =>
    rw [heq]
    exact ⟨(Option.some.inj h).symm, by simp⟩

end TypedRecords.DataType
