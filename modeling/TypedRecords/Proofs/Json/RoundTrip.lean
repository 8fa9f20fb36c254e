import TypedRecords.Proofs.Json.ReadBack
/-!
# Compact text round trip

A record is read back from the compact text of its tree: unboxing leaves a tree without boxes alone, and so does
settling one without repeated keys.
-/

namespace TypedRecords.Json

variable {v : Json} {items : List Json} {members : List (String × Json)}

abbrev Boxless : Json → Prop := Formed fun keys => keys.head? ≠ some numberKey

theorem unbox_all_self (h : ∀ v ∈ items, v.unbox? = some v) : unboxAll? items = some items := by
  induction items with
  | nil => rfl
  | cons v vs ih =>
    rw [List.forall_mem_cons] at h
    simp only [unboxAll?, h.1, ih h.2]

theorem unbox_values_self (h : ∀ m ∈ members, m.2.unbox? = some m.2) :
    unboxValues? members = some members := by
  induction members with
  | nil => rfl
  | cons m ms ih =>
    obtain ⟨k, v⟩ := m
    rw [List.forall_mem_cons] at h
    simp only [unboxValues?, h.1, ih h.2]

theorem unbox_self (h : Boxless v) : v.unbox? = some v := by
  induction h with
  | null | bool | str | num => rfl
  | arr _ ih => rw [unbox?, unbox_all_self ih, Option.map_some]
  | @obj members hkeys _ ih =>
    have hhead : members.head?.any (·.1 == numberKey) = false := by
      cases members <;> simp_all
    rw [unbox?, hhead, unbox_values_self ih]
    rfl

theorem boxed_items (h : ¬ Boxless (.arr items)) (hu : (Json.arr items).unbox? = some w) :
    ∃ unboxed, w = .arr unboxed ∧ ∃ v ∈ items, ¬ Boxless v ∧ ∃ u ∈ unboxed, v.unbox? = some u := by
  rw [unbox?] at hu
  obtain ⟨unboxed, hall, rfl⟩ := Option.map_eq_some_iff.mp hu
  refine ⟨unboxed, rfl, ?_⟩
  by_contra hnone
  refine h (.arr fun v hv => ?_)
  by_contra hbox
  exact hnone ⟨v, hv, hbox, (unbox_all_mem hall).2 v hv⟩

theorem boxed_members (h : ¬ Boxless (.obj members)) (hu : (Json.obj members).unbox? = some w) :
    (∃ literal, w = .num literal) ∨ ∃ unboxed, w = .obj unboxed ∧
      unboxed.map Prod.fst = members.map Prod.fst ∧
        ∃ m ∈ members, ¬ Boxless m.2 ∧ ∃ n ∈ unboxed, n.1 = m.1 ∧ m.2.unbox? = some n.2 := by
  rw [unbox?] at hu
  split at hu
  · obtain ⟨n, hn, -⟩ := boxed_formed (p := fun _ => True) hu
    exact Or.inl ⟨_, hn⟩
  · next hhead =>
    obtain ⟨unboxed, hvalues, rfl⟩ := Option.map_eq_some_iff.mp hu
    refine Or.inr ⟨unboxed, rfl, unbox_values_keys hvalues, ?_⟩
    by_contra hnone
    refine h (.obj ?_ fun m hm => ?_)
    · rw [List.head?_map]
      cases hm : members.head? with
      | none => simp
      | some m => simpa [hm] using hhead
    · by_contra hbox
      exact hnone ⟨m, hm, hbox, (unbox_values_mem hvalues).2 m hm⟩

theorem set_member_new {key : String} (h : key ∉ members.map Prod.fst) :
    setMember key v members = members ++ [(key, v)] := by
  induction members with
  | nil => rfl
  | cons m rest ih =>
    obtain ⟨k, w⟩ := m
    rw [List.map_cons, List.mem_cons, not_or] at h
    rw [setMember, if_neg fun hk => h.1 hk.symm, ih h.2]
    rfl

theorem settle_members_self (settled : List (String × Json))
    (h : ((settled ++ members).map Prod.fst).Nodup) :
    members.foldl (fun settled m => setMember m.1 m.2 settled) settled = settled ++ members := by
  induction members generalizing settled with
  | nil => rw [List.append_nil]; rfl
  | cons m rest ih =>
    have hnew : m.1 ∉ settled.map Prod.fst := by
      intro hm
      rw [List.map_append, List.nodup_append] at h
      exact h.2.2 _ hm _ List.mem_cons_self rfl
    have hsplit : settled ++ m :: rest = settled ++ [m] ++ rest := by rw [List.append_assoc]; rfl
    rw [List.foldl_cons, set_member_new hnew, hsplit]
    exact ih (settled ++ [m]) (hsplit ▸ h)

theorem settle_all_self (h : ∀ v ∈ items, v.settle = v) : settleAll items = items := by
  induction items with
  | nil => rfl
  | cons v vs ih =>
    rw [List.forall_mem_cons] at h
    rw [settleAll, h.1, ih h.2]

theorem settle_values_self (h : ∀ m ∈ members, m.2.settle = m.2) : settleValues members = members := by
  induction members with
  | nil => rfl
  | cons m ms ih =>
    obtain ⟨k, v⟩ := m
    rw [List.forall_mem_cons] at h
    rw [settleValues, h.1, ih h.2]

theorem settle_self (h : Settled v) : v.settle = v := by
  induction h with
  | null | bool | str | num => rfl
  | arr _ ih => rw [settle, settle_all_self ih]
  | obj hkeys _ ih =>
    rw [settle, settle_values_self ih, settleMembers, settle_members_self [] (by simpa using hkeys)]
    rfl

theorem of_text_compact (hs : Settled v) (hb : Boxless v) (hdepth : v.depth ≤ maxNesting) :
    ofText? v.compact = some v := by
  rw [ofText?, read_compact (hs.imp fun _ _ => trivial) hdepth, Option.bind_some, unbox_self hb,
    Option.map_some, settle_self hs]

end TypedRecords.Json
