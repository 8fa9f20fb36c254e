import Mathlib.Data.String.Basic
import TypedRecords.DataType.Merge
/-!
# Sorted field lists

Merged structs list their fields strictly sorted by name, all of them nullable. Such a list is determined
by the types it gives to names, and entering fields acts name by name.
-/

namespace TypedRecords.DataType

def fieldType? (name : String) : List Field → Option DataType
  | [] => none
  | f :: fs => if f.name = name then some f.type else fieldType? name fs

structure Regular (fs : List Field) : Prop where
  sorted : fs.Pairwise fun f g => f.name < g.name
  nullable : ∀ f ∈ fs, f.nullable = true

@[simp] theorem field_type_nil (name : String) : fieldType? name [] = none := rfl

@[simp] theorem field_type_head (f : Field) (fs : List Field) :
    fieldType? f.name (f :: fs) = some f.type := if_pos rfl

theorem field_type_mem {name : String} {t : DataType} :
    {fs : List Field} → fieldType? name fs = some t → ∃ f ∈ fs, f.name = name ∧ f.type = t
  | [], h => by simp at h
  | f :: fs, h => by
    rw [fieldType?] at h
    split at h
    · next hf => exact ⟨f, List.mem_cons_self, hf, Option.some.inj h⟩
    · obtain ⟨g, hg, hn, ht⟩ := field_type_mem h
      exact ⟨g, List.mem_cons_of_mem _ hg, hn, ht⟩

theorem field_type_none {name : String} {fs : List Field} (h : ∀ f ∈ fs, f.name ≠ name) :
    fieldType? name fs = none := by
  cases ht : fieldType? name fs with
  | none => rfl
  | some t =>
    obtain ⟨f, hf, hn, -⟩ := field_type_mem ht
    exact absurd hn (h f hf)

theorem regular_nil : Regular [] := ⟨List.Pairwise.nil, by simp⟩

namespace Regular

theorem tail {f : Field} {fs : List Field} (h : Regular (f :: fs)) : Regular fs :=
  ⟨(List.pairwise_cons.mp h.sorted).2, fun g hg => h.nullable g (List.mem_cons_of_mem _ hg)⟩

theorem head_lt {f : Field} {fs : List Field} (h : Regular (f :: fs)) :
    ∀ g ∈ fs, f.name < g.name :=
  (List.pairwise_cons.mp h.sorted).1

theorem cons {name : String} {t : DataType} {fs : List Field} (h : Regular fs)
    (hlt : ∀ g ∈ fs, name < g.name) : Regular (⟨name, t, true⟩ :: fs) := by
  refine ⟨List.pairwise_cons.mpr ⟨hlt, h.sorted⟩, ?_⟩
  intro g hg
  rcases List.mem_cons.mp hg with rfl | hg
  · rfl
  · exact h.nullable g hg

theorem distinct {fs : List Field} (h : Regular fs) :
    fs.Pairwise fun f g => f.name ≠ g.name :=
  h.sorted.imp fun hlt => ne_of_lt hlt

theorem tail_none {f : Field} {fs : List Field} (h : Regular (f :: fs)) :
    fieldType? f.name fs = none :=
  field_type_none fun g hg => (ne_of_lt (h.head_lt g hg)).symm

theorem mem_type {f : Field} {fs : List Field} (h : Regular fs) (hf : f ∈ fs) :
    fieldType? f.name fs = some f.type := by
  induction fs with
  | nil => simp at hf
  | cons g gs ih =>
    rw [fieldType?]
    rcases List.mem_cons.mp hf with rfl | hf
    · simp
    · rw [if_neg (ne_of_lt (h.head_lt f hf))]
      exact ih h.tail hf

theorem head_le {f : Field} {fs : List Field} (h : Regular (f :: fs)) {name : String} {t : DataType}
    (ht : fieldType? name (f :: fs) = some t) : f.name ≤ name := by
  obtain ⟨g, hg, rfl, -⟩ := field_type_mem ht
  rcases List.mem_cons.mp hg with rfl | hg
  · exact le_rfl
  · exact le_of_lt (h.head_lt g hg)

theorem ext {fs gs : List Field} (hf : Regular fs) (hg : Regular gs)
    (h : ∀ name, fieldType? name fs = fieldType? name gs) : fs = gs := by
  induction fs generalizing gs with
  | nil =>
    cases gs with
    | nil => rfl
    | cons g gs => simpa using h g.name
  | cons f fs ih =>
    cases gs with
    | nil => simpa using h f.name
    | cons g gs =>
      have hn : f.name = g.name :=
        le_antisymm (hf.head_le ((h g.name).trans (field_type_head g gs)))
          (hg.head_le ((h f.name).symm.trans (field_type_head f fs)))
      have ht : f.type = g.type := by simpa [fieldType?, hn] using h f.name
      have hb : f.nullable = g.nullable := by
        rw [hf.nullable f List.mem_cons_self, hg.nullable g List.mem_cons_self]
      have hfg : f = g := by
        cases f; cases g; simp_all
      subst hfg
      congr 1
      refine ih hf.tail hg.tail fun name => ?_
      by_cases hname : f.name = name
      · rw [← hname, hf.tail_none, hg.tail_none]
      · simpa [fieldType?, hname] using h name

end Regular

section Entering

variable {combine : DataType → DataType → DataType} {name : String} {t : DataType}

theorem enter_field_mem {fs : List Field} {f : Field} (h : f ∈ enterField combine name t fs) :
    f.name = name ∨ f ∈ fs := by
  induction fs with
  | nil =>
    rw [enterField, List.mem_singleton] at h
    exact Or.inl (by rw [h])
  | cons g gs ih =>
    rw [enterField] at h
    split at h
    · next hg =>
      rcases List.mem_cons.mp h with rfl | h
      · exact Or.inl rfl
      · exact Or.inr (List.mem_cons_of_mem _ h)
    · split at h
      · rcases List.mem_cons.mp h with rfl | h
        · exact Or.inl rfl
        · exact Or.inr h
      · rcases List.mem_cons.mp h with rfl | h
        · exact Or.inr List.mem_cons_self
        · exact (ih h).imp_right (List.mem_cons_of_mem _)

theorem enter_field_regular {fs : List Field} (h : Regular fs) :
    Regular (enterField combine name t fs) := by
  induction fs with
  | nil => exact regular_nil.cons (by simp)
  | cons g gs ih =>
    rw [enterField]
    split
    · next hg => exact h.tail.cons (hg ▸ h.head_lt)
    · next hg =>
      split
      · next hlt =>
        refine h.cons fun f hf => ?_
        rcases List.mem_cons.mp hf with rfl | hf
        · exact hlt
        · exact lt_trans hlt (h.head_lt f hf)
      · next hlt =>
        have hgn : g.name < name := lt_of_le_of_ne (le_of_not_gt hlt) hg
        have hin := ih h.tail
        refine ⟨List.pairwise_cons.mpr ⟨fun f hf => ?_, hin.sorted⟩, fun f hf => ?_⟩
        · rcases enter_field_mem hf with rfl | hf
          · exact hgn
          · exact h.head_lt f hf
        · rcases List.mem_cons.mp hf with rfl | hf
          · exact h.nullable f List.mem_cons_self
          · exact hin.nullable f hf

theorem enter_field_type {fs : List Field} (h : Regular fs) (m : String) :
    fieldType? m (enterField combine name t fs) =
      Option.merge combine (fieldType? m fs) (if name = m then some t else none) := by
  induction fs with
  | nil => by_cases hm : name = m <;> simp [enterField, fieldType?, hm]
  | cons g gs ih =>
    rw [enterField]
    split
    · next hg =>
      by_cases hm : name = m
      · simp [fieldType?, hg, hm]
      · simp [fieldType?, hg, hm]
    · next hg =>
      split
      · next hlt =>
        by_cases hm : name = m
        · have hn : fieldType? m (g :: gs) = none := by
            refine field_type_none fun f hf => ?_
            rcases List.mem_cons.mp hf with rfl | hf
            · exact fun he => hg (he.trans hm.symm)
            · exact (ne_of_lt (hm ▸ lt_trans hlt (h.head_lt f hf))).symm
          rw [hn, fieldType?]
          simp [hm]
        · rw [fieldType?]
          simp [hm]
      · by_cases hm : g.name = m
        · have hne : name ≠ m := fun he => hg (hm.trans he.symm)
          simp [fieldType?, hm, hne]
        · rw [fieldType?, if_neg hm, ih h.tail, fieldType?, if_neg hm]

theorem enter_fields_regular {fs gs : List Field} (h : Regular gs) :
    Regular (enterFields combine fs gs) := by
  induction fs generalizing gs with
  | nil => exact h
  | cons f fs ih => exact ih (enter_field_regular h)

theorem enter_fields_type {fs gs : List Field} (hf : fs.Pairwise fun f g => f.name ≠ g.name)
    (hg : Regular gs) (m : String) :
    fieldType? m (enterFields combine fs gs) =
      Option.merge combine (fieldType? m gs) (fieldType? m fs) := by
  induction fs generalizing gs with
  | nil => simp [enterFields]
  | cons f fs ih =>
    obtain ⟨hne, hf⟩ := List.pairwise_cons.mp hf
    have hstep : fieldType? m (enterFields combine (f :: fs) gs) =
        Option.merge combine
          (Option.merge combine (fieldType? m gs) (if f.name = m then some f.type else none))
          (fieldType? m fs) := by
      rw [← enter_field_type hg]
      exact ih hf (enter_field_regular hg)
    rw [hstep, fieldType?]
    by_cases hm : f.name = m
    · have hnone : fieldType? m fs = none :=
        field_type_none fun g hgm => hm ▸ (hne g hgm).symm
      simp [hm, hnone]
    · simp [hm]

end Entering

section MergedFields

variable {combine : DataType → DataType → DataType} {fs gs ks : List Field}

theorem merge_fields_regular : Regular (mergeFields combine fs gs) :=
  enter_fields_regular (enter_fields_regular regular_nil)

theorem merge_fields_type (hf : Regular fs) (hg : Regular gs) (name : String) :
    fieldType? name (mergeFields combine fs gs) =
      Option.merge combine (fieldType? name fs) (fieldType? name gs) := by
  have hleft : fieldType? name (enterFields (fun _ t => t) fs []) = fieldType? name fs := by
    rw [enter_fields_type hf.distinct regular_nil, field_type_nil, Option.merge_none_left]
  rw [mergeFields, enter_fields_type hg.distinct (enter_fields_regular regular_nil), hleft]

theorem merge_fields_comm (hf : Regular fs) (hg : Regular gs)
    (h : ∀ name x y, fieldType? name fs = some x → fieldType? name gs = some y → combine x y = combine y x) :
    mergeFields combine fs gs = mergeFields combine gs fs := by
  refine merge_fields_regular.ext merge_fields_regular fun name => ?_
  rw [merge_fields_type hf hg, merge_fields_type hg hf]
  cases hx : fieldType? name fs with
  | none => rw [Option.merge_none_left, Option.merge_none_right]
  | some x =>
    cases hy : fieldType? name gs with
    | none => rw [Option.merge_none_left, Option.merge_none_right]
    | some y => rw [Option.merge_some_some, Option.merge_some_some, h name x y hx hy]

theorem merge_fields_assoc (hf : Regular fs) (hg : Regular gs) (hk : Regular ks)
    (h : ∀ name x y z, fieldType? name fs = some x → fieldType? name gs = some y → fieldType? name ks = some z →
      combine (combine x y) z = combine x (combine y z)) :
    mergeFields combine (mergeFields combine fs gs) ks = mergeFields combine fs (mergeFields combine gs ks) := by
  refine merge_fields_regular.ext merge_fields_regular fun name => ?_
  rw [merge_fields_type merge_fields_regular hk, merge_fields_type hf hg, merge_fields_type hf merge_fields_regular,
    merge_fields_type hg hk]
  cases hx : fieldType? name fs with
  | none => rw [Option.merge_none_left, Option.merge_none_left]
  | some x =>
    cases hy : fieldType? name gs with
    | none => rw [Option.merge_none_left, Option.merge_none_right]
    | some y =>
      cases hz : fieldType? name ks with
      | none => rw [Option.merge_none_right, Option.merge_none_right]
      | some z => simp only [Option.merge_some_some, h name x y z hx hy hz]

end MergedFields

end TypedRecords.DataType
