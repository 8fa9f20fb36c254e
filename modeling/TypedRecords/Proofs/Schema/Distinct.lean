import Mathlib.Data.List.Basic
import TypedRecords.Schema.Basic
/-!
# Schemas without repeated names

When a list of fields makes a schema: any two of its fields differ in name, as names are compared, and so do the
fields of every struct inside them.
-/

namespace TypedRecords

variable {key : String → String} {seen : List String} {fs : List Field} {name : String}

theorem repeated_among_none_iff : repeatedAmong? key seen fs = none ↔
    (∀ f ∈ fs, key f.name ∉ seen ∧ f.type.repeatedName? key = none) ∧
      fs.Pairwise fun f g => key f.name ≠ key g.name := by
  induction fs generalizing seen with
  | nil => simp [repeatedAmong?]
  | cons f fs ih =>
    obtain ⟨n, t, nullable⟩ := f
    rw [repeatedAmong?, List.forall_mem_cons, List.pairwise_cons]
    by_cases hseen : key n ∈ seen
    · simp [hseen]
    rw [if_neg hseen]
    cases t.repeatedName? key with
    | some m => simp
    | none =>
      simp only [ih, List.mem_cons, not_or]
      constructor
      · rintro ⟨hall, hpairs⟩
        refine ⟨⟨⟨hseen, trivial⟩, ?_⟩, ?_, hpairs⟩
        · intro f hf
          exact ⟨(hall f hf).1.2, (hall f hf).2⟩
        · intro f hf
          exact Ne.symm (hall f hf).1.1
      · rintro ⟨⟨-, hall⟩, hfirst, hpairs⟩
        refine ⟨?_, hpairs⟩
        intro f hf
        exact ⟨⟨Ne.symm (hfirst f hf), (hall f hf).1⟩, (hall f hf).2⟩

theorem Schema.names_nodup (s : Schema) : (s.fields.map FieldOf.name).Nodup :=
  List.pairwise_map.mpr (repeated_among_none_iff.mp s.distinct).2

theorem Schema.of_fields_ok_iff {s : Schema} {caseSensitive : Bool} : Schema.ofFields fs caseSensitive = .ok s ↔
    s.fields = fs ∧ repeatedAmong? (Schema.nameKey caseSensitive) [] fs = none := by
  unfold Schema.ofFields
  split
  · next n hn => simp [hn]
  · next hn =>
    obtain ⟨gs, hgs⟩ := s
    simp only [hn, and_true, Except.ok.injEq, Schema.mk.injEq]
    exact eq_comm

theorem Schema.of_fields_exists {caseSensitive : Bool} : (∃ s, Schema.ofFields fs caseSensitive = .ok s) ↔
    repeatedAmong? (Schema.nameKey caseSensitive) [] fs = none := by
  constructor
  · rintro ⟨s, hs⟩
    exact (Schema.of_fields_ok_iff.mp hs).2
  · intro hnone
    exact ⟨⟨fs, repeated_among_id fs (by simp) hnone⟩, Schema.of_fields_ok_iff.mpr ⟨rfl, hnone⟩⟩

namespace DataType

inductive Part (p : DataType) : DataType → Prop where
  | here : Part p p
  | element {e n} : Part p e → Part p (.array e n)
  | value {v n} : Part p v → Part p (.map v n)
  | storage {name t} : Part p t → Part p (.alias name t)
  | field {gs f} : f ∈ gs → Part p f.type → Part p (.struct gs)

end DataType

/-- Two of the fields have one name as names are compared, and `name` is that of the second. -/
def Repeats (key : String → String) (name : String) (fs : List Field) : Prop :=
  ∃ f g, [f, g].Sublist fs ∧ key f.name = key g.name ∧ g.name = name

theorem Repeats.cons {f : Field} (h : Repeats key name fs) : Repeats key name (f :: fs) := by
  obtain ⟨f', g, hsub, hkey, hname⟩ := h
  exact ⟨f', g, hsub.cons f, hkey, hname⟩

mutual

theorem repeated_name_part : (t : DataType) → t.repeatedName? key = some name →
    ∃ gs, DataType.Part (.struct gs) t ∧ Repeats key name gs
  | .struct fs, h => by
    rw [DataType.repeatedName?] at h
    rcases repeated_among_part fs h with ⟨g, -, hseen, -⟩ | hrepeats | ⟨f, hf, gs, hpart, hrepeats⟩
    · exact absurd hseen List.not_mem_nil
    · exact ⟨fs, .here, hrepeats⟩
    · exact ⟨gs, .field hf hpart, hrepeats⟩
  | .array e _, h => by
    obtain ⟨gs, hpart, hrepeats⟩ := repeated_name_part e (by rwa [DataType.repeatedName?] at h)
    exact ⟨gs, .element hpart, hrepeats⟩
  | .map v _, h => by
    obtain ⟨gs, hpart, hrepeats⟩ := repeated_name_part v (by rwa [DataType.repeatedName?] at h)
    exact ⟨gs, .value hpart, hrepeats⟩
  | .alias _ t, h => by
    obtain ⟨gs, hpart, hrepeats⟩ := repeated_name_part t (by rwa [DataType.repeatedName?] at h)
    exact ⟨gs, .storage hpart, hrepeats⟩
  | .null, h | .string, h | .boolean, h | .byte, h | .short, h | .integer, h | .long, h | .float, h
  | .double, h | .decimal _ _, h | .date, h | .timestamp, h | .binary, h => by
    simp [DataType.repeatedName?] at h

theorem repeated_among_part {seen : List String} : (fs : List Field) → repeatedAmong? key seen fs = some name →
    (∃ g ∈ fs, key g.name ∈ seen ∧ g.name = name) ∨ Repeats key name fs ∨
      ∃ f ∈ fs, ∃ gs, DataType.Part (.struct gs) f.type ∧ Repeats key name gs
  | [], h => by simp [repeatedAmong?] at h
  | ⟨n, t, nullable⟩ :: fs, h => by
    rw [repeatedAmong?] at h
    split at h
    · next hseen => exact Or.inl ⟨_, List.mem_cons_self, hseen, Option.some.inj h⟩
    · split at h
      · next m hm =>
        obtain ⟨gs, hpart, hrepeats⟩ := repeated_name_part t (hm.trans h)
        exact Or.inr (Or.inr ⟨_, List.mem_cons_self, gs, hpart, hrepeats⟩)
      · rcases repeated_among_part fs h with ⟨g, hg, hseen, hname⟩ | hrepeats | ⟨f, hf, hparts⟩
        · rcases List.mem_cons.mp hseen with hkey | hseen
          · refine Or.inr (Or.inl ⟨⟨n, t, nullable⟩, g, ?_, hkey.symm, hname⟩)
            exact (List.singleton_sublist.mpr hg).cons_cons _
          · exact Or.inl ⟨g, List.mem_cons_of_mem _ hg, hseen, hname⟩
        · exact Or.inr (Or.inl hrepeats.cons)
        · exact Or.inr (Or.inr ⟨f, List.mem_cons_of_mem _ hf, hparts⟩)

end

theorem part_of_repeated_none {t : DataType} {gs : List Field} (hpart : DataType.Part (.struct gs) t)
    (h : t.repeatedName? key = none) : ¬ Repeats key name gs := by
  induction hpart with
  | here =>
    rintro ⟨f, g, hsub, hkey, -⟩
    rw [DataType.repeatedName?, repeated_among_none_iff] at h
    exact List.pairwise_iff_forall_sublist.mp h.2 hsub hkey
  | element _ ih | value _ ih | storage _ ih =>
    apply ih
    rwa [DataType.repeatedName?] at h
  | field hf _ ih =>
    rw [DataType.repeatedName?, repeated_among_none_iff] at h
    exact ih (h.1 _ hf).2

def otherFields (name : String) (fs : List Field) : List Field := fs.filter fun f => f.name != name

theorem mem_other_fields {f : Field} : f ∈ otherFields name fs ↔ f ∈ fs ∧ f.name ≠ name := by
  simp [otherFields]

/-- The name of a field tells it from all others when names are compared, and its type repeats no name. -/
def ApartIn (key : String → String) (name : String) (fs : List Field) : Prop :=
  ∀ f ∈ fs, f.name = name ∧ f.type.repeatedName? key = none ∨ key f.name ≠ key name

theorem repeated_among_other (hdistinct : fs.Pairwise fun f g => f.name ≠ g.name) (hapart : ApartIn key name fs) :
    repeatedAmong? key [] (otherFields name fs) = none ↔ repeatedAmong? key [] fs = none := by
  rw [repeated_among_none_iff, repeated_among_none_iff]
  constructor
  · rintro ⟨hall, hpairs⟩
    constructor
    · intro f hf
      rcases hapart f hf with ⟨-, htype⟩ | hkey
      · exact ⟨List.not_mem_nil, htype⟩
      · exact hall f (mem_other_fields.mpr ⟨hf, fun hname => hkey (congrArg key hname)⟩)
    · refine (hdistinct.and (List.pairwise_filter.mp hpairs)).imp_of_mem ?_
      rintro f g hf hg ⟨hne, hother⟩
      -- At most one of the two is left out, and that one is told from the other.
      by_cases hfn : f.name = name
      · have hgn : g.name ≠ name := fun hgn => hne (hfn.trans hgn.symm)
        rw [hfn]
        exact ((hapart g hg).resolve_left fun h => hgn h.1).symm
      · by_cases hgn : g.name = name
        · rw [hgn]
          exact (hapart f hf).resolve_left fun h => hfn h.1
        · exact hother (by simpa using hfn) (by simpa using hgn)
  · rintro ⟨hall, hpairs⟩
    exact ⟨fun f hf => hall f (mem_other_fields.mp hf).1, hpairs.filter _⟩

end TypedRecords
