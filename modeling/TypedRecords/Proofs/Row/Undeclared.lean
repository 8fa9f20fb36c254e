import Mathlib.Data.List.Forall2
import TypedRecords.Proofs.Row.Typed
/-!
# Undeclared members and the order of members

Where a type reads a struct, only the declared members count, in whatever order they stand. Everywhere else a token
counts as a whole: a string column keeps its text, and a map keeps all keys in their order.
-/

namespace TypedRecords.Decode

open Json (Settled)

def declaredKeys (fs : List Field) (members : List (String × Json)) : List String :=
  (members.map Prod.fst).filter fun key => fs.any (·.name == key)

mutual

/-- Tokens that differ only where the type reads a struct, and there in the members that no field declares and in the
order of members. -/
def Alike (t : DataType) (v w : Json) : Prop :=
  match t with
  | .alias _ s => Alike s v w
  | .array e _ =>
    match v, w with
    | .arr items, .arr items' => List.Forall₂ (Alike e) items items'
    | .obj members, .obj members' => Alike e (.obj members) (.obj members')
    | v, w => v = w
  | .struct fs =>
    match v, w with
    | .obj members, .obj members' =>
      (declaredKeys fs members).Perm (declaredKeys fs members') ∧ MembersAlike fs members members'
    | v, w => v = w
  | .map e _ =>
    match v, w with
    | .obj members, .obj members' =>
      List.Forall₂ (fun m m' => m.1 = m'.1 ∧ Alike e m.2 m'.2) members members'
    | v, w => v = w
  | _ => v = w

def MembersAlike (fs : List Field) (members members' : List (String × Json)) : Prop :=
  match fs with
  | [] => True
  | ⟨name, t, _⟩ :: fs =>
    (∀ v w, (name, v) ∈ members → (name, w) ∈ members' → Alike t v w) ∧ MembersAlike fs members members'

end

variable {o : Options} {t e : DataType} {n : Bool} {v w : Json} {fs : List Field}
  {members members' : List (String × Json)} {key : String}

theorem mem_declared_keys :
    key ∈ declaredKeys fs members ↔ key ∈ members.map Prod.fst ∧ ∃ f ∈ fs, f.name = key := by
  simp [declaredKeys]

theorem members_alike_iff : MembersAlike fs members members' ↔
    ∀ f ∈ fs, ∀ v w, (f.name, v) ∈ members → (f.name, w) ∈ members' → Alike f.type v w := by
  induction fs with
  | nil => simp [MembersAlike]
  | cons f fs ih =>
    obtain ⟨name, t, nullable⟩ := f
    rw [MembersAlike, ih, List.forall_mem_cons]

section Inversion

theorem alike_array_inv (h : Alike (.array e n) v w) : v = w ∨
    (∃ items items', v = .arr items ∧ w = .arr items' ∧ List.Forall₂ (Alike e) items items') ∨
      ∃ members members', v = .obj members ∧ w = .obj members' ∧ Alike e v w := by
  unfold Alike at h
  split at h
  · exact Or.inr (Or.inl ⟨_, _, rfl, rfl, h⟩)
  · exact Or.inr (Or.inr ⟨_, _, rfl, rfl, h⟩)
  · exact Or.inl h

theorem alike_struct_inv (h : Alike (.struct fs) v w) :
    v = w ∨ ∃ members members', v = .obj members ∧ w = .obj members' := by
  unfold Alike at h
  split at h
  · exact Or.inr ⟨_, _, rfl, rfl⟩
  · exact Or.inl h

theorem alike_map_inv (h : Alike (.map e n) v w) : v = w ∨ ∃ members members', v = .obj members ∧
    w = .obj members' ∧ List.Forall₂ (fun m m' => m.1 = m'.1 ∧ Alike e m.2 m'.2) members members' := by
  unfold Alike at h
  split at h
  · exact Or.inr ⟨_, _, rfl, rfl, h⟩
  · exact Or.inl h

theorem alike_scalar_inv (ht : IsScalar t) (h : Alike t v w) : v = w := by
  unfold Alike at h
  cases t <;> first | contradiction | exact h

end Inversion

theorem settled_members (h : Settled (.obj members)) :
    (members.map Prod.fst).Nodup ∧ ∀ m ∈ members, Settled m.2 := by
  cases h with
  | obj hkeys hmembers => exact ⟨hkeys, hmembers⟩

theorem member_none_of_perm (h : (declaredKeys fs members).Perm (declaredKeys fs members')) {f : Field} (hf : f ∈ fs) :
    Json.member? members f.name = none ↔ Json.member? members' f.name = none := by
  have hdeclared (ms : List (String × Json)) : f.name ∈ declaredKeys fs ms ↔ f.name ∈ ms.map Prod.fst :=
    mem_declared_keys.trans (and_iff_left ⟨f, hf, rfl⟩)
  rw [Json.member_none_iff, Json.member_none_iff, ← hdeclared members, ← hdeclared members', h.mem_iff]

theorem fields_alike (hnone : ∀ f ∈ fs, Json.member? members f.name = none ↔ Json.member? members' f.name = none)
    (hvalue : ∀ f ∈ fs, ∀ v w, Json.member? members f.name = some v → Json.member? members' f.name = some w →
      value o f.type v = value o f.type w) : fields o fs members = fields o fs members' := by
  induction fs with
  | nil => rfl
  | cons f fs ih =>
    obtain ⟨name, t, nullable⟩ := f
    rw [List.forall_mem_cons] at hnone hvalue
    rw [fields, fields, ih hnone.2 hvalue.2]
    cases hv : Json.member? members name with
    | none => rw [hnone.1.mp hv]
    | some v =>
      cases hw : Json.member? members' name with
      | none =>
        rw [hnone.1.mpr hw] at hv
        contradiction
      | some w =>
        dsimp only
        rw [hvalue.1 v w hv hw]

/-- Objects that are alike for a struct have the same row, if members that are alike have the same value. -/
theorem object_alike
    (ih : ∀ f ∈ fs, ∀ v w, Settled v → Settled w → Alike f.type v w → value o f.type v = value o f.type w)
    (hv : Settled (.obj members)) (hw : Settled (.obj members'))
    (h : Alike (.struct fs) (.obj members) (.obj members')) : fields o fs members = fields o fs members' := by
  unfold Alike at h
  obtain ⟨hkeys, hmembers⟩ := h
  refine fields_alike (fun f hf => member_none_of_perm hkeys hf) ?_
  intro f hf v w hmem hmem'
  have hmem := Json.mem_of_member hmem
  have hmem' := Json.mem_of_member hmem'
  refine ih f hf v w ((settled_members hv).2 _ hmem) ((settled_members hw).2 _ hmem') ?_
  exact members_alike_iff.mp hmembers f hf v w hmem hmem'

/-- Tokens that are alike for a type are read as the same value or fail with the same error. -/
theorem value_alike (hv : Settled v) (hw : Settled w) (h : Alike t v w) : value o t v = value o t w := by
  induction t using DataType.induct generalizing v w with
  | scalar t ht => rw [alike_scalar_inv ht h]
  | named name t ih =>
    rw [value_alias, value_alias]
    unfold Alike at h
    exact ih hv hw h
  | array e n ih =>
    rcases alike_array_inv h with rfl | ⟨items, items', rfl, rfl, hitems⟩ | ⟨members, members', rfl, rfl, hsingle⟩
    · rfl
    · cases hv with
      | arr hv =>
        cases hw with
        | arr hw =>
          have hall : items.mapM (value o e) = items'.mapM (value o e) :=
            map_m_congr hitems fun v hmem w hmem' hvw => ih (hv v hmem) (hw w hmem') hvw
          rw [value, value, hall]
          rfl
    · rw [value, value, ih hv hw hsingle]
      rfl
  | map e n ih =>
    rcases alike_map_inv h with rfl | ⟨members, members', rfl, rfl, hmembers⟩
    · rfl
    obtain ⟨-, hv⟩ := settled_members hv
    obtain ⟨-, hw⟩ := settled_members hw
    have hall : (members.mapM fun m => (value o e m.2).map (m.1, ·)) =
        members'.mapM fun m => (value o e m.2).map (m.1, ·) := by
      refine map_m_congr hmembers fun m hm m' hm' hsame => ?_
      rw [hsame.1, ih (hv m hm) (hw m' hm') hsame.2]
    rw [value, value, hall]
    rfl
  | struct fs ih =>
    rcases alike_struct_inv h with rfl | ⟨members, members', rfl, rfl⟩
    · rfl
    · rw [value_object, value_object, object_alike (fun f hf v w hv hw h => ih f hf hv hw h) hv hw h]

theorem alike_self (hv : Settled v) : Alike t v v := by
  induction t using DataType.induct generalizing v with
  | scalar t ht =>
    unfold Alike
    cases t <;> first | contradiction | rfl
  | named name t ih =>
    unfold Alike
    exact ih hv
  | array e n ih =>
    unfold Alike
    split
    · cases hv with
      | arr hitems => exact List.forall₂_same.mpr fun v hmem => ih (hitems v hmem)
    · exact ih hv
    · rfl
  | map e n ih =>
    unfold Alike
    split
    · exact List.forall₂_same.mpr fun m hm => ⟨rfl, ih ((settled_members hv).2 m hm)⟩
    · rfl
  | struct fs ih =>
    unfold Alike
    split
    · next members _ =>
      obtain ⟨hkeys, hmembers⟩ := settled_members hv
      refine ⟨List.Perm.refl _, members_alike_iff.mpr ?_⟩
      intro f hf v w hv hw
      have hsame : some v = some w := (member_of_mem hkeys hv).symm.trans (member_of_mem hkeys hw)
      obtain rfl := Option.some.inj hsame
      exact ih f hf (hmembers _ hv)
    · rfl

theorem alike_of_perm (hv : Settled (.obj members)) (hw : Settled (.obj members'))
    (h : (members.filter fun m => fs.any (·.name == m.1)).Perm (members'.filter fun m => fs.any (·.name == m.1))) :
    Alike (.struct fs) (.obj members) (.obj members') := by
  obtain ⟨-, hmembers⟩ := settled_members hv
  obtain ⟨hkeys', -⟩ := settled_members hw
  have hkeys := h.map Prod.fst
  unfold Alike
  refine ⟨by simpa [declaredKeys, List.filter_map, Function.comp_def] using hkeys, members_alike_iff.mpr ?_⟩
  intro f hf v w hv hw
  have hdeclared : fs.any (·.name == f.name) = true := List.any_eq_true.mpr ⟨f, hf, by simp⟩
  have hv' := (List.mem_filter.mp (h.mem_iff.mp (List.mem_filter.mpr ⟨hv, hdeclared⟩))).1
  have hsame : some v = some w := (member_of_mem hkeys' hv').symm.trans (member_of_mem hkeys' hw)
  obtain rfl := Option.some.inj hsame
  exact alike_self (hmembers _ hv)

/-- Tokens that differ only in undeclared members and in the order of members, where their type reads a struct, have
the same value or the same error, and so have the rows of two objects that are alike for the schema. -/
theorem undeclared_members_ignored (o : Options) :
    (∀ t v w, Settled v → Settled w → Alike t v w → value o t v = value o t w) ∧
      ∀ (s : Schema) text text' members members', Json.ofText? text = some (.obj members) →
        Json.ofText? text' = some (.obj members') → Alike s.toType (.obj members) (.obj members') →
          record s o text = record s o text' := by
  refine ⟨fun t v w hv hw h => value_alike hv hw h, ?_⟩
  intro s text text' members members' htext htext' h
  have hfields := object_alike (fun f _ v w hv hw h => value_alike (o := o) hv hw h) (Json.of_text_settled htext)
    (Json.of_text_settled htext') h
  simp only [record, htext, htext', hfields]

/-- The members of an object that stands for an array of one, and those around it, in another order and among others. -/
theorem undeclared_members_ignored_wrapped :
    let s : Schema := ⟨[⟨"name", .string, true⟩, ⟨"rows", .array (.struct [⟨"id", .string, true⟩]) true, true⟩], rfl⟩
    let members := [("rows", .obj [("id", .str "7"), ("x", .null)]), ("name", .str "n")]
    let members' := [("y", .bool true), ("name", .str "n"), ("rows", .obj [("x", .arr []), ("id", .str "7")])]
    Json.ofText? (Json.obj members).compact = some (.obj members) ∧
      Json.ofText? (Json.obj members').compact = some (.obj members') ∧
      Alike s.toType (.obj members) (.obj members') ∧
      record s {} (Json.obj members).compact = record s {} (Json.obj members').compact := by
  intro s members members'
  have hformed (p : List String → Prop) (hrow : p ["id", "x"]) (hp : p ["rows", "name"]) :
      Json.Formed p (.obj members) :=
    .obj hp (by simpa [members] using ⟨.obj hrow (by simpa using ⟨.str _, .null⟩), .str _⟩)
  have hformed' (p : List String → Prop) (hrow : p ["x", "id"]) (hp : p ["y", "name", "rows"]) :
      Json.Formed p (.obj members') :=
    .obj hp (by simpa [members'] using ⟨.bool _, .str _, .obj hrow (by simpa using ⟨.arr (by simp), .str _⟩)⟩)
  have htext := Json.of_text_compact (hformed _ (by decide) (by decide)) (hformed _ (by decide) (by decide)) (by decide)
  have htext' :=
    Json.of_text_compact (hformed' _ (by decide) (by decide)) (hformed' _ (by decide) (by decide)) (by decide)
  have hsettled := (settled_members (Json.of_text_settled htext)).2
  have hsettled' := (settled_members (Json.of_text_settled htext')).2
  have halike : Alike s.toType (.obj members) (.obj members') := by
    unfold Schema.toType Alike
    refine ⟨by decide, ?_, ?_, trivial⟩
    · intro v w hv hw
      obtain rfl : v = .str "n" := by simpa [members] using hv
      obtain rfl : w = .str "n" := by simpa [members'] using hw
      exact alike_self (.str "n")
    · intro v w hv hw
      have hv' := hsettled _ hv
      have hw' := hsettled' _ hw
      obtain rfl : v = .obj [("id", .str "7"), ("x", .null)] := by simpa [members] using hv
      obtain rfl : w = .obj [("x", .arr []), ("id", .str "7")] := by simpa [members'] using hw
      unfold Alike
      exact alike_of_perm hv' hw' (by simp)
  exact ⟨htext, htext', halike, (undeclared_members_ignored {}).2 s _ _ _ _ htext htext' halike⟩

end TypedRecords.Decode
