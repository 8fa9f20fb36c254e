import TypedRecords.Proofs.DataType.Canonical
import TypedRecords.Proofs.DataType.Merging
/-!
# Types that inference can see

The types that tokens have and that merging makes of them: of the numbers only `long`, `double` and decimals of at
least one digit, arrays that may hold nulls, structs with sorted nullable fields. Their canonical forms are the types
of inferred columns.
-/

namespace TypedRecords.DataType

def Observable : DataType → Prop
  | .null => True
  | .string => True
  | .boolean => True
  | .long => True
  | .double => True
  | .decimal p s => 0 < p ∧ p ≤ maxPrecision ∧ s ≤ p
  | .date => True
  | .timestamp => True
  | .array _ containsNull => containsNull = true
  | .struct fs => Regular fs
  | _ => False

def Seen (t : DataType) : Prop := t.Every Observable

/-- What the type of an inferred column satisfies by itself. -/
def Storable : DataType → Prop
  | .string => True
  | .boolean => True
  | .long => True
  | .double => True
  | .decimal p s => 0 < p ∧ p ≤ maxPrecision ∧ s ≤ p
  | .date => True
  | .timestamp => True
  | .array _ containsNull => containsNull = true
  | .struct fs => fs ≠ [] ∧ (fs.Pairwise fun f g => f.name < g.name) ∧ ∀ f ∈ fs, f.name ≠ "" ∧ f.nullable = true
  | _ => False

variable {t u a b : DataType} {fs : List Field}

theorem Observable.tidy (h : Observable t) : Tidy t := by
  cases t <;> first | exact h | trivial | exact ⟨h.2.2, h.2.1⟩

theorem Seen.plain (h : Seen t) : t.Plain := Every.imp (fun _ => Observable.tidy) t h

@[simp] theorem seen_array {e : DataType} {n : Bool} : Seen (.array e n) ↔ n = true ∧ Seen e := by
  simp [Seen, Every, Observable]

theorem seen_struct : Seen (.struct fs) ↔ Regular fs ∧ ∀ f ∈ fs, Seen f.type := by
  simp [Seen, Every, Observable, every_field_iff]

@[simp] theorem seen_decimal {p s : Nat} : Seen (.decimal p s) ↔ 0 < p ∧ p ≤ maxPrecision ∧ s ≤ p := by
  simp [Seen, Every, Observable]

@[simp] theorem not_seen_map {v : DataType} {n : Bool} : ¬ Seen (.map v n) := by
  simp [Seen, Every, Observable]

theorem seen_field {name : String} (h : Seen (.struct fs)) (ht : fieldType? name fs = some t) : Seen t := by
  obtain ⟨f, hf, -, rfl⟩ := field_type_mem ht
  exact (seen_struct.mp h).2 f hf

section Numbers

def Span.Seen (x : Span) : Prop := 0 < x.1 + x.2.1 ∧ (x.2.2 = false → x = span .long)

theorem Seen.span (h : Seen t) (hn : t.isNumber = true) : t.span.Seen := by
  cases t with
  | long => exact ⟨by decide, fun _ => rfl⟩
  | double => exact ⟨by decide, nofun⟩
  | decimal p s =>
    have hdigits := seen_decimal.mp h
    refine ⟨?_, nofun⟩
    simp only [DataType.span]
    omega
  | byte | short | integer | float => exact absurd h (by simp [Seen, Every, Observable])
  | _ => contradiction

theorem Span.Seen.sup {x y : Span} (hx : x.Seen) (hy : y.Seen) : Span.Seen (x ⊔ y) := by
  obtain ⟨r, s, d⟩ := x
  obtain ⟨r', s', d'⟩ := y
  constructor
  · have hpos : 0 < r + s := hx.1
    change 0 < max r r' + max s s'
    omega
  · intro hd
    have hor : (d || d') = false := hd
    rw [Bool.or_eq_false_iff] at hor
    rw [hx.2 hor.1, hy.2 hor.2, sup_idem]

theorem of_span_seen {x : Span} (h : x.Seen) : Seen (ofSpan x) := by
  unfold ofSpan
  split
  · trivial
  · next hmax =>
    split
    · exact seen_decimal.mpr ⟨h.1, Nat.not_lt.mp hmax, Nat.le_add_left _ _⟩
    · next hd =>
      rw [h.2 (by simpa using hd)]
      trivial

end Numbers

theorem merge_seen (ha : Seen a) (hb : Seen b) : Seen (merge a b) := by
  have h := merges_to ha.plain.orderly hb.plain.orderly
  generalize merge a b = m at h
  induction h with
  | same => exact ha
  | nullLeft => exact hb
  | nullRight => exact ha
  | storedLeft => exact absurd ha.plain not_plain_alias
  | storedRight => exact absurd hb.plain not_plain_alias
  | number hna hnb => exact of_span_seen ((ha.span hna).sup (hb.span hnb))
  | dateTimestamp | timestampDate | mixed => trivial
  | array _ ih =>
    obtain ⟨hna, ha⟩ := seen_array.mp ha
    obtain ⟨-, hb⟩ := seen_array.mp hb
    exact seen_array.mpr ⟨by simp [hna], ih ha hb⟩
  | map => exact absurd ha not_seen_map
  | struct hfs hgs _ ih =>
    refine seen_struct.mpr ⟨merge_fields_regular, ?_⟩
    intro f hf
    rcases merge_fields_mem hfs hgs hf with ht | ht | ⟨x, y, hx, hy, hxy⟩
    · exact seen_field ha ht
    · exact seen_field hb ht
    · rw [← hxy]
      exact ih _ x y hx hy (seen_field ha hx) (seen_field hb hy)

theorem storable_fields (hfs : Regular fs) (hne : canonicalFields fs ≠ []) :
    Storable (.struct (canonicalFields fs)) := by
  have hregular := canonical_fields_regular hfs
  refine ⟨hne, hregular.sorted, ?_⟩
  intro g hg
  obtain ⟨f, -, hname, hne, -⟩ := canonical_fields_mem hg
  exact ⟨hname ▸ hne, hregular.nullable g hg⟩

theorem canonical_storable (h : Seen t) (hu : t.canonical? = some u) : u.Every Storable := by
  induction hn : t.size using Nat.strong_induction_on generalizing t u with
  | h n ih =>
    subst hn
    cases t with
    | null =>
      obtain rfl := Option.some.inj hu
      trivial
    | array e n =>
      obtain ⟨e', he, rfl⟩ := Option.map_eq_some_iff.mp hu
      obtain ⟨hnull, hseen⟩ := seen_array.mp h
      exact ⟨hnull, ih _ (by simp [size]) hseen he rfl⟩
    | struct fs =>
      obtain ⟨rfl, hne⟩ := canonical_struct hu
      obtain ⟨hregular, hfields⟩ := seen_struct.mp h
      refine ⟨storable_fields hregular hne, every_field_iff.mpr ?_⟩
      intro g hg
      obtain ⟨f, hf, -, -, ht⟩ := canonical_fields_mem hg
      have hsize := fields_size_mem hf
      exact ih f.type.size (by simp only [size]; omega) (hfields f hf) ht rfl
    | string | boolean | long | double | date | timestamp | decimal =>
      obtain rfl := Option.some.inj hu
      exact h
    | _ => exact absurd h (by simp [Seen, Every, Observable])

end TypedRecords.DataType
