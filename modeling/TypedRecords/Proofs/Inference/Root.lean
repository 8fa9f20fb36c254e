import Mathlib.Data.Finset.Lattice.Fold
import TypedRecords.Proofs.Inference.Types
/-!
# Root types

Records merge at the root, where an array stands for its innermost elements and a record of another shape
beside a struct stands for the corrupt column. On root types this is a join of its own, so the root type of a
collection depends on the set of its records only.
-/

namespace TypedRecords.Inference

open DataType

variable {o : Options} {a b c : DataType}

theorem element_type_plain (h : a.Plain) : (elementType a).Plain := by
  fun_induction elementType a with
  | case1 e _ ih => exact ih (plain_array.mp h)
  | case2 t _ => exact h

theorem element_type_flat (t : DataType) : (elementType t).family ≠ .array := by
  fun_induction elementType t with
  | case1 e _ ih => exact ih
  | case2 t h => cases t <;> simp_all [family]

theorem element_type_of_flat (h : a.family ≠ .array) : elementType a = a := by
  cases a <;> first | rfl | contradiction

theorem corrupt_type_cases : corruptType o = .null ∨ (corruptType o).family = .struct := by
  unfold corruptType
  split
  · exact Or.inr rfl
  · exact Or.inl rfl

theorem ne_null_of_struct (h : a.family = .struct) : a ≠ .null := by
  rintro rfl
  contradiction

theorem merge_struct_family (ha : a.Plain) (hb : b.Plain) (has : a.family = .struct)
    (hbs : b = .null ∨ b.family = .struct) : (merge a b).family = .struct := by
  rcases hbs with rfl | hbs
  · rwa [merge_null]
  · rw [family_merge ha hb (ne_null_of_struct has) (ne_null_of_struct hbs), if_pos (has.trans hbs.symm), has]

theorem merge_other_family (ha : a.Plain) (hb : b.Plain) (han : a ≠ .null) (hbn : b ≠ .null)
    (has : a.family ≠ .struct) : (merge a b).family ≠ .struct ∧ merge a b ≠ .null := by
  have hfam := family_merge ha hb han hbn
  refine ⟨?_, fun hm => ?_⟩
  · rw [hfam]
    split
    · exact has
    · simp
  · rw [hm] at hfam
    split at hfam
    · exact han (null_of_family hfam.symm)
    · contradiction

theorem merge_elements_eq (ha : a ≠ .null) (hb : b ≠ .null) : mergeElements o a b =
    if a.family = .struct then
      if b.family = .struct then merge a b else merge a (corruptType o)
    else if b.family = .struct then merge b (corruptType o) else merge a b := by
  cases a <;> first | contradiction | (cases b <;> first | contradiction | rfl)

@[simp] theorem null_merge_elements : mergeElements o .null a = a := rfl

@[simp] theorem merge_elements_null : mergeElements o a .null = a := by
  cases a <;> rfl

theorem merge_elements_keeps {p : DataType → Prop} (hm : ∀ a b, p a → p b → p (merge a b))
    (hcorrupt : p (corruptType o)) (ha : p a) (hb : p b) : p (mergeElements o a b) := by
  by_cases han : a = .null
  · rwa [han, null_merge_elements]
  by_cases hbn : b = .null
  · rwa [hbn, merge_elements_null]
  rw [merge_elements_eq han hbn]
  repeat' split
  · exact hm a b ha hb
  · exact hm a _ ha hcorrupt
  · exact hm b _ hb hcorrupt
  · exact hm a b ha hb

theorem merge_elements_plain (ha : a.Plain) (hb : b.Plain) : (mergeElements o a b).Plain :=
  merge_elements_keeps (fun _ _ => merge_plain) corrupt_type_plain ha hb

/-- What a record stands for beside a struct: a struct for itself, a record of any other shape for the corrupt column. -/
def besideStruct (o : Options) (t : DataType) : DataType := if t.family = .struct then t else corruptType o

theorem beside_struct_of_struct (h : a.family = .struct) : besideStruct o a = a := if_pos h

theorem beside_struct_of_other (h : a.family ≠ .struct) : besideStruct o a = corruptType o := if_neg h

theorem beside_struct_plain (h : a.Plain) : (besideStruct o a).Plain := by
  unfold besideStruct
  split
  · exact h
  · exact corrupt_type_plain

theorem beside_struct_cases (o : Options) (a : DataType) : besideStruct o a = .null ∨ (besideStruct o a).family = .struct := by
  unfold besideStruct
  split
  · next h => exact Or.inr h
  · exact corrupt_type_cases

/-- As soon as one of two records is a struct, both count as structs. -/
theorem merge_elements_struct (hb : b.Plain) (han : a ≠ .null) (hbn : b ≠ .null)
    (h : a.family = .struct ∨ b.family = .struct) :
    mergeElements o a b = merge (besideStruct o a) (besideStruct o b) := by
  rw [merge_elements_eq han hbn]
  by_cases has : a.family = .struct
  · rw [if_pos has, beside_struct_of_struct has]
    by_cases hbs : b.family = .struct
    · rw [if_pos hbs, beside_struct_of_struct hbs]
    · rw [if_neg hbs, beside_struct_of_other hbs]
  · have hbs := h.resolve_left has
    rw [if_neg has, if_pos hbs, beside_struct_of_other has, beside_struct_of_struct hbs,
      merge_comm hb corrupt_type_plain]

theorem merge_elements_other (han : a ≠ .null) (hbn : b ≠ .null) (has : a.family ≠ .struct)
    (hbs : b.family ≠ .struct) : mergeElements o a b = merge a b := by
  rw [merge_elements_eq han hbn, if_neg has, if_neg hbs]

theorem merge_elements_family (ha : a.Plain) (hb : b.Plain) (han : a ≠ .null) (hbn : b ≠ .null)
    (h : a.family = .struct ∨ b.family = .struct) : (mergeElements o a b).family = .struct := by
  rw [merge_elements_struct hb han hbn h]
  have hpa : (besideStruct o a).Plain := beside_struct_plain ha
  have hpb : (besideStruct o b).Plain := beside_struct_plain hb
  rcases h with has | hbs
  · refine merge_struct_family hpa hpb ?_ (beside_struct_cases o b)
    rwa [beside_struct_of_struct has]
  · rw [merge_comm hpa hpb]
    refine merge_struct_family hpb hpa ?_ (beside_struct_cases o a)
    rwa [beside_struct_of_struct hbs]

theorem merge_elements_struct_iff (ha : a.Plain) (hb : b.Plain) (han : a ≠ .null) (hbn : b ≠ .null) :
    (mergeElements o a b).family = .struct ↔ a.family = .struct ∨ b.family = .struct := by
  constructor
  · intro h
    by_contra hnone
    obtain ⟨has, hbs⟩ := not_or.mp hnone
    rw [merge_elements_other han hbn has hbs] at h
    exact (merge_other_family ha hb han hbn has).1 h
  · exact merge_elements_family ha hb han hbn

theorem merge_elements_ne_null (ha : a.Plain) (hb : b.Plain) (han : a ≠ .null) (hbn : b ≠ .null) :
    mergeElements o a b ≠ .null := by
  by_cases h : a.family = .struct ∨ b.family = .struct
  · exact ne_null_of_struct (merge_elements_family ha hb han hbn h)
  · obtain ⟨has, hbs⟩ := not_or.mp h
    rw [merge_elements_other han hbn has hbs]
    exact (merge_other_family ha hb han hbn has).2

theorem beside_merge_elements (ha : a.Plain) (hb : b.Plain) (han : a ≠ .null) (hbn : b ≠ .null) :
    besideStruct o (mergeElements o a b) = merge (besideStruct o a) (besideStruct o b) := by
  by_cases h : a.family = .struct ∨ b.family = .struct
  · rw [beside_struct_of_struct (merge_elements_family ha hb han hbn h), merge_elements_struct hb han hbn h]
  · obtain ⟨has, hbs⟩ := not_or.mp h
    rw [beside_struct_of_other ((merge_elements_struct_iff ha hb han hbn).not.mpr h), beside_struct_of_other has,
      beside_struct_of_other hbs, merge_self]

theorem merge_elements_flat (ha : a.Plain) (hb : b.Plain) (haf : a.family ≠ .array)
    (hbf : b.family ≠ .array) : (mergeElements o a b).family ≠ .array := by
  by_cases han : a = .null
  · rwa [han, null_merge_elements]
  by_cases hbn : b = .null
  · rwa [hbn, merge_elements_null]
  by_cases h : a.family = .struct ∨ b.family = .struct
  · rw [merge_elements_family ha hb han hbn h]
    simp
  · obtain ⟨has, hbs⟩ := not_or.mp h
    rw [merge_elements_other han hbn has hbs, family_merge ha hb han hbn]
    split
    · exact haf
    · simp

theorem merge_elements_self (a : DataType) : mergeElements o a a = a := by
  by_cases han : a = .null
  · rw [han, null_merge_elements]
  · rw [merge_elements_eq han han]
    split
    · rw [merge_self]
    · rw [merge_self]

theorem merge_elements_comm (ha : a.Plain) (hb : b.Plain) :
    mergeElements o a b = mergeElements o b a := by
  by_cases han : a = .null
  · rw [han, null_merge_elements, merge_elements_null]
  by_cases hbn : b = .null
  · rw [hbn, null_merge_elements, merge_elements_null]
  rw [merge_elements_eq han hbn, merge_elements_eq hbn han, merge_comm ha hb]
  by_cases has : a.family = .struct <;> by_cases hbs : b.family = .struct <;> simp [has, hbs]

/-- If any of three records is a struct then all three count as structs, wherever the brackets stand. -/
theorem merge_elements_assoc (ha : a.Plain) (hb : b.Plain) (hc : c.Plain) :
    mergeElements o (mergeElements o a b) c = mergeElements o a (mergeElements o b c) := by
  by_cases han : a = .null
  · rw [han, null_merge_elements, null_merge_elements]
  by_cases hbn : b = .null
  · rw [hbn, merge_elements_null, null_merge_elements]
  by_cases hcn : c = .null
  · rw [hcn, merge_elements_null, merge_elements_null]
  have hbc : (mergeElements o b c).Plain := merge_elements_plain hb hc
  have habn : mergeElements o a b ≠ .null := merge_elements_ne_null ha hb han hbn
  have hbcn : mergeElements o b c ≠ .null := merge_elements_ne_null hb hc hbn hcn
  have habs := merge_elements_struct_iff (o := o) ha hb han hbn
  have hbcs := merge_elements_struct_iff (o := o) hb hc hbn hcn
  by_cases h : a.family = .struct ∨ b.family = .struct ∨ c.family = .struct
  · rw [merge_elements_struct hc habn hcn (by rwa [habs, or_assoc]),
      merge_elements_struct hbc han hbcn (by rwa [hbcs]), beside_merge_elements ha hb han hbn,
      beside_merge_elements hb hc hbn hcn,
      merge_assoc (beside_struct_plain ha) (beside_struct_plain hb) (beside_struct_plain hc)]
  · obtain ⟨has, hbs, hcs⟩ := by rwa [not_or, not_or] at h
    rw [merge_elements_other habn hcn (habs.not.mpr (not_or.mpr ⟨has, hbs⟩)) hcs,
      merge_elements_other han hbcn has (hbcs.not.mpr (not_or.mpr ⟨hbs, hcs⟩)), merge_elements_other han hbn has hbs,
      merge_elements_other hbn hcn hbs hcs, merge_assoc ha hb hc]

theorem merge_root_eq (ha : a.Plain) (hb : b.Plain) :
    mergeRoot o a b = mergeElements o (elementType a) (elementType b) := by
  unfold mergeRoot
  split
  · exact merge_elements_comm (element_type_plain (plain_array.mp hb)) (element_type_plain ha)
  · next h =>
    rw [element_type_of_flat (a := b)]
    cases b <;> simp_all [family]

@[ext] structure RootType (o : Options) where
  type : DataType
  plain : type.Plain
  flat : type.family ≠ .array
  deriving DecidableEq

namespace RootType

instance : Max (RootType o) :=
  ⟨fun a b => ⟨mergeElements o a.type b.type, merge_elements_plain a.plain b.plain,
    merge_elements_flat a.plain b.plain a.flat b.flat⟩⟩

instance : SemilatticeSup (RootType o) :=
  SemilatticeSup.mk' (fun a b => RootType.ext (merge_elements_comm a.plain b.plain))
    (fun a b c => RootType.ext (merge_elements_assoc a.plain b.plain c.plain))
    (fun a => RootType.ext (merge_elements_self a.type))

instance : OrderBot (RootType o) where
  bot := ⟨.null, trivial, by simp [family]⟩
  bot_le a := RootType.ext (null_merge_elements (o := o) (a := a.type))

@[simp] theorem bot_type : (⊥ : RootType o).type = .null := rfl

theorem sup_type (a b : RootType o) : (a ⊔ b).type = mergeElements o a.type b.type := rfl

theorem le_iff {a b : RootType o} : a ≤ b ↔ mergeElements o a.type b.type = b.type := by
  rw [← sup_eq_right, RootType.ext_iff]
  rfl

def ofRecord (o : Options) (text : String) : RootType o :=
  ⟨elementType (typeOfRecord o text), element_type_plain (type_of_record_plain text),
    element_type_flat _⟩

end RootType

theorem merge_root_record (a : RootType o) (text : String) :
    mergeRoot o a.type (typeOfRecord o text) = (a ⊔ RootType.ofRecord o text).type := by
  rw [merge_root_eq a.plain (type_of_record_plain text), element_type_of_flat a.flat]
  rfl

/-- The root type of a collection is the join of those of its records. -/
theorem merge_all_roots_sup (records : List String) :
    mergeAllRoots o (records.map (typeOfRecord o)) =
      (records.toFinset.sup (RootType.ofRecord o)).type := by
  have hfold : ∀ a : RootType o, (records.map (typeOfRecord o)).foldl (mergeRoot o) a.type =
      (a ⊔ records.toFinset.sup (RootType.ofRecord o)).type := by
    induction records with
    | nil => intro a; simp
    | cons text records ih =>
      intro a
      rw [List.map_cons, List.foldl_cons, merge_root_record, ih, List.toFinset_cons, Finset.sup_insert,
        sup_assoc]
  have h := hfold ⊥
  rwa [bot_sup_eq, RootType.bot_type] at h

/-- A way of merging records two by two; `empty` is the type that every merging starts from. -/
inductive Reduction where
  | record (text : String)
  | empty
  | join (left right : Reduction)
  deriving DecidableEq, Repr

namespace Reduction

def records : Reduction → List String
  | record text => [text]
  | empty => []
  | join left right => left.records ++ right.records

def root (o : Options) : Reduction → DataType
  | record text => mergeRoot o .null (typeOfRecord o text)
  | empty => .null
  | join left right => mergeRoot o (left.root o) (right.root o)

theorem root_sup (r : Reduction) :
    r.root o = (r.records.toFinset.sup (RootType.ofRecord o)).type := by
  induction r with
  | record text =>
    have h := merge_root_record (⊥ : RootType o) text
    rw [bot_sup_eq, RootType.bot_type] at h
    simpa [records, root] using h
  | empty => simp [records, root]
  | join left right hl hr =>
    rw [root, hl, hr, records, List.toFinset_append, Finset.sup_union, RootType.sup_type,
      merge_root_eq (RootType.plain _) (RootType.plain _), element_type_of_flat (RootType.flat _),
      element_type_of_flat (RootType.flat _)]

end Reduction

end TypedRecords.Inference
