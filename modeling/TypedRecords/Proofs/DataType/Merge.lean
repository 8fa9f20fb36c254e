import TypedRecords.Proofs.DataType.Fields
/-!
# The equations of merging

The fuel of `mergeWithin` never runs out: every recursive call is on a pair of smaller total size, and a
merged type is no larger than its two parts together. So `merge` has the equations one would write for it
without fuel.
-/

namespace TypedRecords.DataType

theorem size_pos (t : DataType) : 0 < t.size := by
  cases t <;> simp [size]

theorem fields_size_mem {f : Field} {fs : List Field} (h : f ∈ fs) : f.type.size ≤ fieldsSize fs := by
  induction fs with
  | nil => simp at h
  | cons g gs ih =>
    rw [fieldsSize]
    rcases List.mem_cons.mp h with rfl | h
    · omega
    · have := ih h
      omega

section Sizes

variable {combine : DataType → DataType → DataType}

theorem enter_field_size (hc : ∀ a b, (combine a b).size ≤ a.size + b.size) (name : String)
    (t : DataType) (fs : List Field) :
    fieldsSize (enterField combine name t fs) ≤ t.size + fieldsSize fs := by
  induction fs with
  | nil => simp [enterField, fieldsSize]
  | cons g gs ih =>
    have hg := hc g.type t
    rw [enterField]
    split
    · simp only [fieldsSize]
      omega
    · split <;> simp only [fieldsSize] <;> omega

theorem enter_fields_size (hc : ∀ a b, (combine a b).size ≤ a.size + b.size) (fs gs : List Field) :
    fieldsSize (enterFields combine fs gs) ≤ fieldsSize fs + fieldsSize gs := by
  induction fs generalizing gs with
  | nil => simp [enterFields, fieldsSize]
  | cons f fs ih =>
    have hstep := enter_field_size hc f.name f.type gs
    have hrest : fieldsSize (enterFields combine (f :: fs) gs) ≤
        fieldsSize fs + fieldsSize (enterField combine f.name f.type gs) := ih _
    rw [fieldsSize]
    omega

theorem merge_fields_size (hc : ∀ a b, (combine a b).size ≤ a.size + b.size) (fs gs : List Field) :
    fieldsSize (mergeFields combine fs gs) ≤ fieldsSize fs + fieldsSize gs := by
  have hleft : fieldsSize (enterFields (fun _ t => t) fs []) ≤ fieldsSize fs + fieldsSize [] :=
    enter_fields_size (fun _ _ => Nat.le_add_left _ _) fs []
  have hboth := enter_fields_size hc gs (enterFields (fun _ t => t) fs [])
  rw [fieldsSize] at hleft
  rw [mergeFields]
  omega

end Sizes

@[simp] theorem merge_decimals_size (p s p' s' : Nat) : (mergeDecimals p s p' s').size = 1 := by
  rw [mergeDecimals]
  split <;> rfl

theorem merge_scalars_size (a b : DataType) : (mergeScalars a b).size ≤ a.size + b.size := by
  have ha := a.size_pos
  have hb := b.size_pos
  unfold mergeScalars
  repeat' split
  all_goals
    simp [size]
    try omega

section Agreement

variable {combine combine' : DataType → DataType → DataType}

theorem merge_step_size (hc : ∀ a b, (combine a b).size ≤ a.size + b.size) (a b : DataType) :
    (mergeStep combine a b).size ≤ a.size + b.size := by
  unfold mergeStep
  split
  · omega
  · split
    · omega
    · omega
    · next s _ _ =>
      have := hc s b
      simp only [size]
      omega
    · next s _ _ _ =>
      have := hc s a
      simp only [size]
      omega
    · next fs gs _ =>
      have := merge_fields_size hc fs gs
      simp only [size]
      omega
    · next e _ e' _ _ =>
      have := hc e e'
      simp only [size]
      omega
    · next v _ v' _ _ =>
      have := hc v v'
      simp only [size]
      omega
    · exact merge_scalars_size _ _

theorem merge_within_size (fuel : Nat) (a b : DataType) :
    (mergeWithin fuel a b).size ≤ a.size + b.size := by
  induction fuel generalizing a b with
  | zero =>
    have := a.size_pos
    simp only [mergeWithin, size]
    omega
  | succ fuel ih => exact merge_step_size ih a b

theorem enter_field_congr {name : String} {t : DataType} {fs : List Field}
    (h : ∀ f ∈ fs, combine f.type t = combine' f.type t) :
    enterField combine name t fs = enterField combine' name t fs := by
  induction fs with
  | nil => rfl
  | cons g gs ih =>
    rw [enterField, enterField, h g List.mem_cons_self,
      ih fun f hf => h f (List.mem_cons_of_mem _ hf)]

theorem enter_fields_congr {bound : Nat} (hc : ∀ a b, (combine a b).size ≤ a.size + b.size)
    (h : ∀ a b : DataType, a.size + b.size ≤ bound → combine a b = combine' a b)
    {fs gs : List Field} (hb : fieldsSize fs + fieldsSize gs ≤ bound) :
    enterFields combine fs gs = enterFields combine' fs gs := by
  induction fs generalizing gs with
  | nil => rfl
  | cons f fs ih =>
    rw [fieldsSize] at hb
    have hstep : enterField combine f.name f.type gs = enterField combine' f.name f.type gs :=
      enter_field_congr fun g hg => h _ _ (by have := fields_size_mem hg; omega)
    have hsize := enter_field_size hc f.name f.type gs
    have hrest : enterFields combine fs (enterField combine f.name f.type gs) =
        enterFields combine' fs (enterField combine f.name f.type gs) := ih (by omega)
    exact hrest.trans (congrArg (enterFields combine' fs) hstep)

theorem merge_fields_congr {bound : Nat} (hc : ∀ a b, (combine a b).size ≤ a.size + b.size)
    (h : ∀ a b : DataType, a.size + b.size ≤ bound → combine a b = combine' a b)
    {fs gs : List Field} (hb : fieldsSize fs + fieldsSize gs ≤ bound) :
    mergeFields combine fs gs = mergeFields combine' fs gs := by
  have hleft : fieldsSize (enterFields (fun _ t => t) fs []) ≤ fieldsSize fs + fieldsSize [] :=
    enter_fields_size (fun _ _ => Nat.le_add_left _ _) fs []
  rw [fieldsSize] at hleft
  exact enter_fields_congr hc h (by omega)

theorem merge_step_congr (hc : ∀ a b, (combine a b).size ≤ a.size + b.size) {a b : DataType}
    (h : ∀ x y : DataType, x.size + y.size < a.size + b.size → combine x y = combine' x y) :
    mergeStep combine a b = mergeStep combine' a b := by
  unfold mergeStep
  split
  · rfl
  · split
    · rfl
    · rfl
    · exact h _ _ (by simp only [size]; omega)
    · exact h _ _ (by simp only [size]; omega)
    · next fs gs _ =>
      have hsmaller : ∀ x y : DataType, x.size + y.size ≤ fieldsSize fs + fieldsSize gs →
          combine x y = combine' x y := fun x y hxy => h x y (by simp only [size]; omega)
      rw [merge_fields_congr hc hsmaller le_rfl]
    · rw [h _ _ (by simp only [size]; omega)]
    · rw [h _ _ (by simp only [size]; omega)]
    · rfl

end Agreement

theorem merge_within_stable {fuel fuel' : Nat} {a b : DataType} (h : a.size + b.size ≤ fuel)
    (h' : a.size + b.size ≤ fuel') : mergeWithin fuel a b = mergeWithin fuel' a b := by
  have hpos := a.size_pos
  induction fuel generalizing fuel' a b with
  | zero => omega
  | succ fuel ih =>
    cases fuel' with
    | zero => omega
    | succ fuel' =>
      refine merge_step_congr (merge_within_size fuel) fun x y hxy => ?_
      exact ih (by omega) (by omega) x.size_pos

theorem merge_unfold (a b : DataType) : merge a b = mergeStep merge a b := by
  have hstep : merge a b = mergeStep (mergeWithin (a.size + b.size)) a b :=
    merge_within_stable le_rfl (Nat.le_succ _)
  rw [hstep]
  exact merge_step_congr (merge_within_size _) fun x y hxy => merge_within_stable hxy.le le_rfl

@[simp] theorem merge_self (t : DataType) : merge t t = t := by
  rw [merge_unfold]
  exact if_pos rfl

@[simp] theorem null_merge (t : DataType) : merge .null t = t := by
  rw [merge_unfold]
  unfold mergeStep
  split
  · assumption
  · rfl

@[simp] theorem merge_null (t : DataType) : merge t .null = t := by
  rw [merge_unfold]
  unfold mergeStep
  split
  · rfl
  · cases t <;> rfl

theorem merge_struct {fs gs : List Field} (h : fs ≠ gs) :
    merge (.struct fs) (.struct gs) = .struct (mergeFields merge fs gs) := by
  rw [merge_unfold, mergeStep, if_neg (by simpa using h)]

theorem merge_array (e e' : DataType) (n n' : Bool) :
    merge (.array e n) (.array e' n') = .array (merge e e') (n || n') := by
  rw [merge_unfold, mergeStep]
  split
  · next h =>
    obtain ⟨rfl, rfl⟩ := DataType.array.inj h
    simp
  · rfl

theorem merge_map (v v' : DataType) (n n' : Bool) :
    merge (.map v n) (.map v' n') = .map (merge v v') (n || n') := by
  rw [merge_unfold, mergeStep]
  split
  · next h =>
    obtain ⟨rfl, rfl⟩ := DataType.map.inj h
    simp
  · rfl

end TypedRecords.DataType
