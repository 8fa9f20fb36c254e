import Mathlib.Data.List.Nodup
import TypedRecords.Proofs.Schema.Distinct
/-!
# Accepted schemas

A list of fields makes a schema exactly when no struct in it, the list itself included, has two fields whose names are
equal as names are compared. A list that is refused is refused for a field with the name of one before it. In a schema a
name stands for at most one field, which the look-ups by name find.
-/

namespace TypedRecords

variable {key : String → String} {fs : List Field} {name : String}

def NamesApart (key : String → String) (fs : List Field) : Prop := fs.Pairwise fun f g => key f.name ≠ key g.name

theorem names_apart_iff : NamesApart key fs ↔ ∀ name, ¬ Repeats key name fs := by
  rw [NamesApart, List.pairwise_iff_forall_sublist]
  constructor
  · rintro h name ⟨f, g, hsub, hkey, -⟩
    exact h hsub hkey
  · intro h f g hsub hkey
    exact h g.name ⟨f, g, hsub, hkey, rfl⟩

namespace DataType

def Apart (key : String → String) (t : DataType) : Prop := ∀ gs, Part (.struct gs) t → NamesApart key gs

theorem apart_iff {t : DataType} : t.Apart key ↔ t.repeatedName? key = none := by
  constructor
  · intro hapart
    by_contra hsome
    obtain ⟨name, hname⟩ := Option.ne_none_iff_exists'.mp hsome
    obtain ⟨gs, hpart, hrepeats⟩ := repeated_name_part t hname
    exact names_apart_iff.mp (hapart gs hpart) name hrepeats
  · intro hnone gs hpart
    rw [names_apart_iff]
    exact fun name => part_of_repeated_none hpart hnone

end DataType

namespace Schema

open DataType (Part)

variable {caseSensitive : Bool} {e : Error}

theorem of_fields_error_iff : ofFields fs caseSensitive = .error e ↔
    ∃ name, e = .duplicateField name ∧ repeatedAmong? (nameKey caseSensitive) [] fs = some name := by
  unfold ofFields
  split
  · next name hname =>
    rw [hname]
    constructor
    · intro h
      exact ⟨name, (Except.error.inj h).symm, rfl⟩
    · rintro ⟨other, rfl, hother⟩
      rw [Option.some.inj hother]
  · next hnone =>
    constructor
    · intro h
      cases h
    · rintro ⟨name, -, hname⟩
      rw [hnone] at hname
      cases hname

theorem eq_of_name_eq (s : Schema) {f g : Field} (hf : f ∈ s.fields) (hg : g ∈ s.fields) (h : f.name = g.name) :
    f = g := List.inj_on_of_nodup_map s.names_nodup hf hg h

theorem field_some_iff (s : Schema) {f : Field} : s.field? name = some f ↔ f ∈ s.fields ∧ f.name = name := by
  constructor
  · intro h
    exact ⟨List.mem_of_find?_eq_some h, by simpa using List.find?_some h⟩
  · rintro ⟨hf, rfl⟩
    obtain ⟨g, hg⟩ : ∃ g, s.field? f.name = some g := by
      rw [← Option.isSome_iff_exists, field?, List.find?_isSome]
      exact ⟨f, hf, by simp⟩
    have hname : g.name = f.name := by simpa using List.find?_some hg
    rw [hg, s.eq_of_name_eq (List.mem_of_find?_eq_some hg) hf hname]

theorem index_some_iff (s : Schema) {i : Nat} :
    s.indexOf? name = some i ↔ ∃ f, s.fields[i]? = some f ∧ f.name = name := by
  rw [indexOf?, List.findIdx?_eq_some_iff_getElem]
  constructor
  · rintro ⟨hi, hname, -⟩
    exact ⟨s.fields[i], List.getElem?_eq_getElem hi, by simpa using hname⟩
  · rintro ⟨f, hf, rfl⟩
    obtain ⟨hi, rfl⟩ := List.getElem?_eq_some_iff.mp hf
    refine ⟨hi, by simp, ?_⟩
    intro j hj hname
    have hj' := Nat.lt_trans hj hi
    have hsame : s.fields[j] = s.fields[i] :=
      s.eq_of_name_eq (List.getElem_mem hj') (List.getElem_mem hi) (by simpa using hname)
    have hnodup : s.fields.Nodup := s.names_nodup.of_map _
    exact absurd ((List.Nodup.getElem_inj_iff hnodup).mp hsame) (Nat.ne_of_lt hj)

/-- Fields make a schema exactly when the names are apart in all of their structs, and the schema has these very fields.
If they do not, the error names the second of two fields with one name. In the schema a name is found at one position
only, which is that of the field that is found. -/
theorem accepted_iff_apart (fs : List Field) (caseSensitive : Bool) :
    ((∃ s, ofFields fs caseSensitive = .ok s) ↔ (DataType.struct fs).Apart (nameKey caseSensitive)) ∧
      (∀ e, ofFields fs caseSensitive = .error e → ∃ name gs, e = .duplicateField name ∧
        Part (.struct gs) (.struct fs) ∧ Repeats (nameKey caseSensitive) name gs) ∧
      ∀ s, ofFields fs caseSensitive = .ok s → s.fields = fs ∧ ∀ name,
        (∀ f, s.field? name = some f ↔ f ∈ fs ∧ f.name = name) ∧
        (∀ i, s.indexOf? name = some i ↔ ∃ f, fs[i]? = some f ∧ f.name = name) ∧
        ∀ f, s.field? name = some f ↔ ∃ i, s.indexOf? name = some i ∧ fs[i]? = some f := by
  refine ⟨?_, ?_, ?_⟩
  · rw [of_fields_exists, DataType.apart_iff, DataType.repeatedName?]
  · intro e he
    obtain ⟨name, rfl, hname⟩ := of_fields_error_iff.mp he
    obtain ⟨gs, hpart, hrepeats⟩ := repeated_name_part (.struct fs) hname
    exact ⟨name, gs, rfl, hpart, hrepeats⟩
  · intro s hs
    obtain ⟨rfl, -⟩ := of_fields_ok_iff.mp hs
    refine ⟨rfl, fun name => ⟨fun f => s.field_some_iff, fun i => s.index_some_iff, fun f => ?_⟩⟩
    rw [field_some_iff]
    constructor
    · rintro ⟨hf, rfl⟩
      obtain ⟨i, hi⟩ := List.mem_iff_getElem?.mp hf
      exact ⟨i, s.index_some_iff.mpr ⟨f, hi, rfl⟩, hi⟩
    · rintro ⟨i, hi, hf⟩
      obtain ⟨g, hg, rfl⟩ := s.index_some_iff.mp hi
      obtain rfl := Option.some.inj (hf.symm.trans hg)
      exact ⟨List.mem_of_getElem? hf, rfl⟩

/-- Two names in a struct under an array and an alias that differ in case only. The same name outside of the struct is
no matter. -/
theorem accepted_iff_apart_case :
    let fs : List Field := [⟨"x", .array (.alias "pair" (.struct [⟨"y", .long, true⟩, ⟨"x", .long, true⟩,
      ⟨"Y", .string, true⟩])) true, true⟩, ⟨"y", .long, true⟩]
    (∃ s, ofFields fs true = .ok s ∧ s.fields = fs ∧ s.indexOf? "y" = some 1) ∧
      ofFields fs false = .error (.duplicateField "Y") ∧ ¬ (DataType.struct fs).Apart (nameKey false) := by
  intro fs
  have hok : ∃ s, ofFields fs true = .ok s := of_fields_exists.mpr rfl
  have herror : ofFields fs false = .error (.duplicateField "Y") := rfl
  obtain ⟨s, hs⟩ := hok
  obtain ⟨hfields, hlook⟩ := (accepted_iff_apart fs true).2.2 s hs
  refine ⟨⟨s, hs, hfields, ((hlook "y").2.1 1).mpr ⟨_, rfl, rfl⟩⟩, herror, ?_⟩
  rw [← (accepted_iff_apart fs false).1, herror]
  rintro ⟨_, h⟩
  cases h

end Schema

end TypedRecords
