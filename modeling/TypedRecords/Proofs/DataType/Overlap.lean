import TypedRecords.Proofs.DataType.Lattice
/-!
# Where merging depends on the side

Of two aliases the left one is unfolded first, and only until what is left of it is the other one or `null`. So which
alias survives depends on the side where one of two different aliases is stored as the other or as `null`. Everywhere
else merging is commutative.
-/

namespace TypedRecords.DataType

/-- The types that an alias is stored as, through aliases of aliases. -/
def storages : DataType → List DataType
  | .alias _ t => t :: t.storages
  | _ => []

/-- Unfolding the one type comes to the other or to `null`. -/
def Hides (a b : DataType) : Prop := b ∈ a.storages ∨ a.resolve = .null

/-- Two types with an overlap of aliases: they are different aliases of which one hides the other, or there are two
such types at one place of what they are stored as. -/
inductive Clash : DataType → DataType → Prop where
  | hidden {a b} : a.family = .named → b.family = .named → a ≠ b → Hides a b ∨ Hides b a → Clash a b
  | stored {a b} : a.family = .named → b.family = .named → Clash a.resolve b.resolve → Clash a b
  | element {e n e' n'} : Clash e e' → Clash (.array e n) (.array e' n')
  | value {v n v' n'} : Clash v v' → Clash (.map v n) (.map v' n')
  | field {fs gs name x y} : fieldType? name fs = some x → fieldType? name gs = some y → Clash x y →
      Clash (.struct fs) (.struct gs)

variable {a b m : DataType} {fs gs : List Field}

section Resolving

theorem family_of_no_alias (h : ∀ name s, a = .alias name s → False) : a.family ≠ .named := by
  intro hfam
  obtain ⟨name, s, rfl⟩ := alias_of_family hfam
  exact h name s rfl

theorem resolve_self (h : a.family ≠ .named) : a.resolve = a := by
  cases a <;> first | contradiction | rfl

theorem storages_self (h : a.family ≠ .named) : a.storages = [] := by
  cases a <;> first | contradiction | rfl

theorem resolve_family (a : DataType) : a.resolve.family ≠ .named := by
  fun_induction resolve a with
  | case1 name t ih => exact ih
  | case2 t ht => exact family_of_no_alias ht

theorem resolve_orderly (h : a.Orderly) : a.resolve.Orderly := by
  fun_induction resolve a with
  | case1 name t ih => exact ih (orderly_alias.mp h)
  | case2 t _ => exact h

theorem resolve_size_le (a : DataType) : a.resolve.size ≤ a.size := by
  fun_induction resolve a with
  | case1 name t ih => exact ih.trans (Nat.le_succ _)
  | case2 t _ => exact Nat.le_refl _

theorem resolve_size_lt (h : a.family = .named) : a.resolve.size < a.size := by
  obtain ⟨name, s, rfl⟩ := alias_of_family h
  exact Nat.lt_succ_of_le (resolve_size_le s)

end Resolving

section Unfolding

theorem merge_one_alias (ha : a.family = .named) (hb : b.family ≠ .named) : merge a b = merge b a := by
  by_cases hbn : b = .null
  · rw [hbn, merge_null, null_merge]
  obtain ⟨name, s, rfl⟩ := alias_of_family ha
  have hne : .alias name s ≠ b := by
    rintro rfl
    exact hb rfl
  rw [alias_merge hne hbn, merge_alias hb hbn]

theorem merge_resolve (hb : b.family ≠ .named) (hbn : b ≠ .null) : merge a b = merge a.resolve b := by
  fun_induction resolve a with
  | case1 name t ih =>
    have hne : .alias name t ≠ b := by
      rintro rfl
      exact hb rfl
    rw [alias_merge hne hbn, ih]
  | case2 t _ => rfl

theorem merge_hides (h : Hides a b) (hb : b ≠ .null) : merge a b = b := by
  fun_induction resolve a with
  | case1 name t ih =>
    by_cases hab : .alias name t = b
    · rw [← hab, merge_self]
    rw [alias_merge hab hb]
    rcases h with hmem | hnull
    · rcases List.mem_cons.mp hmem with rfl | hmem
      · exact merge_self b
      · exact ih (Or.inl hmem)
    · exact ih (Or.inr hnull)
  | case2 t ht =>
    have hfam := family_of_no_alias ht
    rcases h with hmem | hnull
    · rw [storages_self hfam] at hmem
      exact absurd hmem List.not_mem_nil
    · rw [resolve_self hfam] at hnull
      rw [hnull, null_merge]

theorem merge_open (hb : b.family = .named) (hne : a ≠ b) (h : ¬ Hides a b) :
    merge a b = merge b.resolve a.resolve := by
  fun_induction resolve a with
  | case1 name t ih =>
    have hbn : b ≠ .null := by
      rintro rfl
      contradiction
    rw [alias_merge hne hbn]
    apply ih
    · rintro rfl
      exact h (Or.inl List.mem_cons_self)
    · rintro (hmem | hnull)
      · exact h (Or.inl (List.mem_cons_of_mem _ hmem))
      · exact h (Or.inr hnull)
  | case2 t ht =>
    have hfam := family_of_no_alias ht
    have htn : t ≠ .null := by
      rintro rfl
      exact h (Or.inr rfl)
    rw [← merge_one_alias hb hfam, merge_resolve hfam htn]

theorem merge_not_named (ha : a.Orderly) (hb : b.Orderly) (hfa : a.family ≠ .named) (hfb : b.family ≠ .named) :
    (merge a b).family ≠ .named := by
  have h := merges_to ha hb
  generalize merge a b = m at h
  cases h with
  | same => exact hfa
  | nullLeft => exact hfb
  | nullRight => exact hfa
  | storedLeft => exact absurd rfl hfa
  | storedRight => exact absurd rfl hfb
  | number =>
    rw [(number_iff_family _).mp (of_span_number _)]
    decide
  | _ => simp [family]

end Unfolding

namespace Clash

theorem family (h : Clash a b) : a.family = b.family := by
  cases h with
  | hidden hfa hfb | stored hfa hfb => rw [hfa, hfb]
  | _ => rfl

theorem nested (h : Clash a b) : a.family ∈ [Family.named, .array, .map, .struct] := by
  cases h with
  | hidden hfa | stored hfa => simp [hfa]
  | _ => simp [DataType.family]

theorem ne (h : Clash a b) : a ≠ b := by
  induction h with
  | hidden _ _ hne => exact hne
  | stored _ _ _ ih =>
    rintro rfl
    exact ih rfl
  | element _ ih | value _ ih =>
    intro heq
    injection heq
    contradiction
  | field hx hy _ ih =>
    intro heq
    obtain rfl := DataType.struct.inj heq
    exact ih (Option.some.inj (hx.symm.trans hy))

end Clash

theorem clash_array {e e' : DataType} {n n' : Bool} : Clash (.array e n) (.array e' n') ↔ Clash e e' := by
  constructor
  · intro h
    cases h with
    | hidden hfa | stored hfa => contradiction
    | element h => exact h
  · exact .element

theorem clash_map {v v' : DataType} {n n' : Bool} : Clash (.map v n) (.map v' n') ↔ Clash v v' := by
  constructor
  · intro h
    cases h with
    | hidden hfa | stored hfa => contradiction
    | value h => exact h
  · exact .value

theorem clash_struct : Clash (.struct fs) (.struct gs) ↔
    ∃ name x y, fieldType? name fs = some x ∧ fieldType? name gs = some y ∧ Clash x y := by
  constructor
  · intro h
    cases h with
    | hidden hfa | stored hfa => contradiction
    | field hx hy h => exact ⟨_, _, _, hx, hy, h⟩
  · rintro ⟨name, x, y, hx, hy, h⟩
    exact .field hx hy h

theorem hides_asymmetric (ha : a.Orderly) (hb : b.Orderly) (hfa : a.family = .named) (hfb : b.family = .named)
    (hne : a ≠ b) (h : Hides a b) : merge a b ≠ merge b a := by
  have hnull {t : DataType} (ht : t.family = .named) : t ≠ .null := by
    rintro rfl
    contradiction
  rw [merge_hides h (hnull hfb)]
  by_cases hba : Hides b a
  · rw [merge_hides hba (hnull hfa)]
    exact hne.symm
  · -- From this side both aliases are unfolded, and what they are stored as gives no alias.
    rw [merge_open hfa hne.symm hba]
    intro heq
    rw [heq] at hfb
    exact merge_not_named (resolve_orderly ha) (resolve_orderly hb) (resolve_family a) (resolve_family b) hfb

theorem aliases_comm_iff (ha : a.Orderly) (hb : b.Orderly) (hfa : a.family = .named) (hfb : b.family = .named)
    (hne : a ≠ b)
    (ih : merge a.resolve b.resolve = merge b.resolve a.resolve ↔ ¬ Clash a.resolve b.resolve) :
    merge a b = merge b a ↔ ¬ Clash a b := by
  by_cases hab : Hides a b
  · exact iff_of_false (hides_asymmetric ha hb hfa hfb hne hab) (not_not_intro (.hidden hfa hfb hne (Or.inl hab)))
  by_cases hba : Hides b a
  · exact iff_of_false (hides_asymmetric hb ha hfb hfa hne.symm hba).symm
      (not_not_intro (.hidden hfa hfb hne (Or.inr hba)))
  rw [merge_open hfb hne hab, merge_open hfa hne.symm hba, eq_comm, ih, not_iff_not]
  constructor
  · exact .stored hfa hfb
  · intro h
    cases h with
    | hidden _ _ _ h => exact absurd h (not_or_intro hab hba)
    | stored _ _ h => exact h
    | _ => contradiction

theorem merge_fields_comm_iff (hfs : Regular fs) (hgs : Regular gs) : mergeFields merge fs gs = mergeFields merge gs fs ↔
    ∀ name x y, fieldType? name fs = some x → fieldType? name gs = some y → merge x y = merge y x := by
  constructor
  · intro h name x y hx hy
    have htype := congrArg (fieldType? name) h
    rw [merge_fields_type hfs hgs, merge_fields_type hgs hfs, hx, hy] at htype
    exact Option.some.inj htype
  · exact merge_fields_comm hfs hgs

/-- Merging is commutative exactly where no aliases clash. -/
theorem merge_comm_iff (ha : a.Orderly) (hb : b.Orderly) : merge a b = merge b a ↔ ¬ Clash a b := by
  induction hn : a.size + b.size using Nat.strong_induction_on generalizing a b with
  | h n ih =>
    subst hn
    by_cases hab : a = b
    · rw [hab]
      exact iff_of_true rfl fun h => h.ne rfl
    by_cases hfa : a.family = .named
    · by_cases hfb : b.family = .named
      · have hasize := resolve_size_lt hfa
        have hbsize := resolve_size_lt hfb
        exact aliases_comm_iff ha hb hfa hfb hab (ih _ (by omega) (resolve_orderly ha) (resolve_orderly hb) rfl)
      · exact iff_of_true (merge_one_alias hfa hfb) fun h => hfb (h.family ▸ hfa)
    by_cases hfb : b.family = .named
    · exact iff_of_true (merge_one_alias hfb hfa).symm fun h => hfa (h.family.trans hfb)
    have h := merges_to ha hb
    generalize hm : merge a b = m at h
    cases h with
    | same => exact absurd rfl hab
    | nullLeft => exact iff_of_true (merge_null b).symm fun h => by simpa [family] using h.nested
    | nullRight =>
      refine iff_of_true (null_merge a).symm ?_
      intro h
      have hnested := h.nested
      rw [h.family] at hnested
      simp [family] at hnested
    | storedLeft => exact absurd rfl hfa
    | storedRight => exact absurd rfl hfb
    | number hna hnb hne =>
      rw [merge_numbers_of_ne hnb hna hne.symm, sup_comm]
      exact iff_of_true rfl fun h => by simpa [(number_iff_family a).mp hna] using h.nested
    | dateTimestamp | timestampDate => exact iff_of_true rfl fun h => by simpa [family] using h.nested
    | @array e n e' n' =>
      rw [← hm, merge_array, merge_array, Bool.or_comm n', clash_array, DataType.array.injEq, and_iff_left rfl]
      exact ih _ (by simp only [size]; omega) (orderly_array.mp ha) (orderly_array.mp hb) rfl
    | @map v n v' n' =>
      rw [← hm, merge_map, merge_map, Bool.or_comm n', clash_map, DataType.map.injEq, and_iff_left rfl]
      exact ih _ (by simp only [size]; omega) (orderly_map.mp ha) (orderly_map.mp hb) rfl
    | struct hfs hgs =>
      rw [merge_struct_regular hgs hfs, DataType.struct.injEq, merge_fields_comm_iff hfs hgs, clash_struct]
      simp only [not_exists, not_and]
      refine forall₃_congr fun name x y => forall₂_congr fun hx hy => ?_
      have hxsize := field_type_size hx
      have hysize := field_type_size hy
      exact ih _ (by omega) (orderly_field ha hx) (orderly_field hb hy) rfl
    | mixed _ _ han hbn hne =>
      rw [merge_family_ne hfb hfa hbn han hne.symm]
      exact iff_of_true rfl fun h => hne h.family

/-- Aliases of different arrays in one field merge alike from both sides, and an alias of another alias does not. -/
theorem merge_comm_iff_fields :
    let a := struct [⟨"v", .alias "A" (.array (.alias "P" .long) true), true⟩]
    let b := struct [⟨"v", .alias "B" (.array (.alias "Q" .double) false), true⟩]
    let c := struct [⟨"v", .alias "C" (.alias "B" (.array (.alias "Q" .double) false)), true⟩]
    (a.Orderly ∧ b.Orderly ∧ c.Orderly) ∧ (merge a b = merge b a ∧ ¬ Clash a b) ∧ Clash c b ∧ merge c b ≠ merge b c := by
  intro a b c
  have hone {t : DataType} (ht : t.Orderly) : (struct [⟨"v", t, true⟩]).Orderly := by
    refine orderly_struct.mpr ⟨regular_nil.cons (by simp), ?_⟩
    intro f hf
    rwa [List.mem_singleton.mp hf]
  have harray {name : String} {t : DataType} (n : Bool) (ht : t.Plain) :
      (DataType.array (.alias name t) n).Orderly := orderly_array.mpr (orderly_alias.mpr ht.orderly)
  have ha : a.Orderly := hone (orderly_alias.mpr (harray true trivial))
  have hb : b.Orderly := hone (orderly_alias.mpr (harray false trivial))
  have hc : c.Orderly := hone (orderly_alias.mpr (orderly_alias.mpr (harray false trivial)))
  have hsame : merge a b = merge b a := rfl
  have hclash : Clash c b := by
    refine clash_struct.mpr ⟨"v", _, _, rfl, rfl, .hidden rfl rfl ?_ (Or.inl (Or.inl ?_))⟩
    · decide
    · exact List.mem_cons_self
  refine ⟨⟨ha, hb, hc⟩, ⟨hsame, (merge_comm_iff ha hb).mp hsame⟩, hclash, ?_⟩
  intro heq
  exact (merge_comm_iff hc hb).mp heq hclash

/-- Unfolded on the left, the longer alias comes to the shorter one, which stays; on the right it meets that one
already unfolded. -/
theorem hidden_alias_lost :
    let a := DataType.alias "A" (.alias "B" .long)
    let b := DataType.alias "B" .long
    (a.Orderly ∧ b.Orderly) ∧ merge a b = .alias "B" .long ∧ merge b a = .long ∧ merge a b ≠ merge b a := by
  intro a b
  have hlong : DataType.long.Orderly := Plain.orderly trivial
  have hab : merge a b = .alias "B" .long := rfl
  have hba : merge b a = .long := rfl
  refine ⟨⟨?_, ?_⟩, hab, hba, ?_⟩
  · exact orderly_alias.mpr (orderly_alias.mpr hlong)
  · exact orderly_alias.mpr hlong
  · rw [hab, hba]
    exact nofun

end TypedRecords.DataType
