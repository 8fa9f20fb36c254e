import TypedRecords.Proofs.Row.Sequence
import TypedRecords.Row.Encode
/-!
# Written tokens

What the token of a value is made of, type by type.
-/

namespace TypedRecords.Encode

open DataType

variable {t : DataType} {x : Value} {token : Json} {fs : List Field} {row : List Value} {f : Field} {v : Value}
  {members : List (String × Json)}

theorem value_alias (n : String) (t : DataType) (x : Value) : value (.alias n t) x = value t x := by
  rw [value]
  split
  · next h =>
    unfold value
    rw [if_pos h]
  · rfl

theorem value_string (h : t.resolve = .string) (text : String) : value t (.string text) = .ok (.str text) := by
  induction t using resolve.induct with
  | case1 name t ih => rw [value_alias, ih h]
  | case2 t ht =>
    rw [resolve] at h
    · rw [h]
      rfl
    · exact ht

theorem value_array_inv {e : DataType} {n : Bool} {items : List Value}
    (h : value (.array e n) (.array items) = .ok token) :
    ∃ tokens, items.mapM (value e) = .ok tokens ∧ token = .arr tokens := by
  rw [value] at h
  exact map_ok_inv h

theorem value_map_inv {w : DataType} {n : Bool} {entries : List (String × Value)}
    (h : value (.map w n) (.map entries) = .ok token) :
    ∃ members, (entries.mapM fun e => (value w e.2).map (e.1, ·)) = .ok members ∧ token = .obj members := by
  rw [value] at h
  exact map_ok_inv h

theorem value_struct_inv (h : value (.struct fs) (.struct row) = .ok token) :
    ∃ members, fields fs row = .ok members ∧ token = .obj members := by
  rw [value] at h
  simp only [Value.isNull, Bool.false_eq_true, if_false] at h
  split at h
  · exact map_ok_inv h
  · cases h

theorem fields_cons_inv (h : fields (f :: fs) (v :: row) = .ok members) :
    v.isNull = true ∧ fields fs row = .ok members ∨
      ∃ token rest, value f.type v = .ok token ∧ fields fs row = .ok rest ∧ members = (f.name, token) :: rest := by
  obtain ⟨name, t, n⟩ := f
  rw [fields] at h
  split at h
  · next hnull => exact Or.inl ⟨hnull, h⟩
  · refine Or.inr ?_
    cases hv : value t v with
    | error _ =>
      rw [hv] at h
      cases h
    | ok token =>
      rw [hv] at h
      obtain ⟨rest, hrest, rfl⟩ := map_ok_inv h
      exact ⟨token, rest, rfl, hrest, rfl⟩

theorem fields_members (h : fields fs row = .ok members) :
    (∀ m ∈ members, ∃ p ∈ fs.zip row, p.1.name = m.1 ∧ value p.1.type p.2 = .ok m.2) ∧
      (members.map Prod.fst).Sublist (fs.map FieldOf.name) := by
  induction fs generalizing row members with
  | nil =>
    cases h
    simp
  | cons f fs ih =>
    cases row with
    | nil =>
      cases h
      simp
    | cons v row =>
      rcases fields_cons_inv h with ⟨-, hrest⟩ | ⟨token, rest, hv, hrest, rfl⟩
      · obtain ⟨hmem, hsub⟩ := ih hrest
        refine ⟨fun m hm => ?_, hsub.cons _⟩
        obtain ⟨p, hp, hpm⟩ := hmem m hm
        exact ⟨p, List.mem_cons_of_mem _ hp, hpm⟩
      · obtain ⟨hmem, hsub⟩ := ih hrest
        refine ⟨fun m hm => ?_, hsub.cons_cons _⟩
        rcases List.mem_cons.mp hm with rfl | hm
        · exact ⟨_, List.mem_cons_self, rfl, hv⟩
        · obtain ⟨p, hp, hpm⟩ := hmem m hm
          exact ⟨p, List.mem_cons_of_mem _ hp, hpm⟩

def present (fs : List Field) (row : List Value) : List (Field × Value) := (fs.zip row).filter fun p => !p.2.isNull

theorem fields_present (h : fields fs row = .ok members) :
    List.Forall₂ (fun p m => p.1.name = m.1 ∧ value p.1.type p.2 = .ok m.2) (present fs row) members := by
  induction fs generalizing row members with
  | nil =>
    cases h
    exact .nil
  | cons f fs ih =>
    cases row with
    | nil =>
      cases h
      exact .nil
    | cons v row =>
      obtain ⟨name, t, n⟩ := f
      rw [present, List.zip_cons_cons]
      by_cases hnull : v.isNull = true
      · rw [fields, if_pos hnull] at h
        rw [List.filter_cons_of_neg (by simpa using hnull)]
        exact ih h
      · rw [List.filter_cons_of_pos (by simpa using hnull)]
        rcases fields_cons_inv h with ⟨hskipped, -⟩ | ⟨token, rest, hv, hrest, rfl⟩
        · contradiction
        · exact .cons ⟨rfl, hv⟩ (ih hrest)

theorem field_member {p : Field × Value} (hp : p ∈ fs.zip row) (hnull : p.2.isNull = false)
    (h : fields fs row = .ok members) : ∃ m ∈ members, p.1.name = m.1 ∧ value p.1.type p.2 = .ok m.2 := by
  have hpresent : p ∈ present fs row := List.mem_filter.mpr ⟨hp, by simp [hnull]⟩
  exact forall₂_mem (fields_present h) hpresent

end TypedRecords.Encode
