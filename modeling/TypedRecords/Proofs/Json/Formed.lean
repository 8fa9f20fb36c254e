import TypedRecords.Proofs.Json.Numeral
/-!
# Formed trees

The trees that reading gives: every number is a numeral, and in a record no object repeats a key.
-/

namespace TypedRecords.Json

/-- Induction over a tree, with the hypothesis for each item and each member. -/
@[elab_as_elim] theorem induct {motive : Json → Prop} (null : motive .null) (bool : ∀ b, motive (.bool b))
    (num : ∀ literal, motive (.num literal)) (str : ∀ s, motive (.str s))
    (arr : ∀ items, (∀ v ∈ items, motive v) → motive (.arr items))
    (obj : ∀ members, (∀ m ∈ members, motive m.2) → motive (.obj members)) (v : Json) : motive v :=
  @Json.rec motive (fun items => ∀ v ∈ items, motive v) (fun members => ∀ m ∈ members, motive m.2)
    (fun m => motive m.2) null bool num str arr obj (by simp)
    (fun _ _ hv hvs => List.forall_mem_cons.mpr ⟨hv, hvs⟩) (by simp)
    (fun _ _ hm hms => List.forall_mem_cons.mpr ⟨hm, hms⟩) (fun _ _ hv => hv) v

/-- Every number is a numeral, and `keys` holds of the keys of every object. -/
inductive Formed (keys : List String → Prop) : Json → Prop where
  | null : Formed keys .null
  | bool (b) : Formed keys (.bool b)
  | str (s) : Formed keys (.str s)
  | num (n : Numeral) : Formed keys (.num (String.ofList n.chars))
  | arr {items} : (∀ v ∈ items, Formed keys v) → Formed keys (.arr items)
  | obj {members} : keys (members.map Prod.fst) → (∀ m ∈ members, Formed keys m.2) →
      Formed keys (.obj members)

theorem Formed.imp {p q : List String → Prop} (hpq : ∀ keys, p keys → q keys) {v : Json} (h : Formed p v) :
    Formed q v := by
  induction h with
  | null => exact .null
  | bool b => exact .bool b
  | str s => exact .str s
  | num n => exact .num n
  | arr _ ih => exact .arr ih
  | obj hkeys _ ih => exact .obj (hpq _ hkeys) ih

abbrev Read : Json → Prop := Formed fun _ => True

abbrev Settled : Json → Prop := Formed List.Nodup

variable {o : Outline} {cs rest : List Char} {v w : Json} {items : List Json}
  {members : List (String × Json)}

structure FormedWithin (fuel : Nat) : Prop where
  value : ∀ o depth cs v rest, readValue o fuel depth cs = some (v, rest) → Read v
  items : ∀ o depth cs items rest, readItems o fuel depth cs = some (items, rest) → ∀ v ∈ items, Read v
  members : ∀ o depth cs members rest, readMembers o fuel depth cs = some (members, rest) →
    ∀ m ∈ members, Read m.2

theorem value_formed {fuel depth : Nat} (ih : FormedWithin fuel)
    (h : readValue o (fuel + 1) depth cs = some (v, rest)) : Read v := by
  rw [readValue] at h
  split at h
  · obtain ⟨rfl, -⟩ := Prod.mk.inj (Option.some.inj h)
    exact .null
  · obtain ⟨rfl, -⟩ := Prod.mk.inj (Option.some.inj h)
    exact .bool true
  · obtain ⟨rfl, -⟩ := Prod.mk.inj (Option.some.inj h)
    exact .bool false
  · obtain ⟨⟨s, r⟩, -, hs⟩ := Option.map_eq_some_iff.mp h
    obtain ⟨rfl, -⟩ := Prod.mk.inj hs
    exact .str s
  · split at h
    · contradiction
    split at h
    · obtain ⟨rfl, -⟩ := Prod.mk.inj (Option.some.inj h)
      exact .arr (by simp)
    · obtain ⟨⟨items, r⟩, hr, hv⟩ := Option.map_eq_some_iff.mp h
      obtain ⟨rfl, -⟩ := Prod.mk.inj hv
      exact .arr (ih.items _ _ _ _ _ hr)
  · split at h
    · contradiction
    split at h
    · obtain ⟨rfl, -⟩ := Prod.mk.inj (Option.some.inj h)
      exact .obj trivial (by simp)
    · obtain ⟨⟨members, r⟩, hr, hv⟩ := Option.map_eq_some_iff.mp h
      obtain ⟨rfl, -⟩ := Prod.mk.inj hv
      exact .obj trivial (ih.members _ _ _ _ _ hr)
  · obtain ⟨⟨t, r⟩, ht, hv⟩ := Option.map_eq_some_iff.mp h
    obtain ⟨rfl, -⟩ := Prod.mk.inj hv
    obtain ⟨n, rfl⟩ := number_text_sound ht
    exact .num n

theorem items_formed {fuel depth : Nat} (ih : FormedWithin fuel)
    (h : readItems o (fuel + 1) depth cs = some (items, rest)) : ∀ v ∈ items, Read v := by
  rw [readItems] at h
  split at h
  · contradiction
  · next v r hv =>
    have hread := ih.value _ _ _ _ _ hv
    split at h
    · obtain ⟨⟨vs, r'⟩, hr, heq⟩ := Option.map_eq_some_iff.mp h
      obtain ⟨rfl, -⟩ := Prod.mk.inj heq
      exact List.forall_mem_cons.mpr ⟨hread, ih.items _ _ _ _ _ hr⟩
    · obtain ⟨rfl, -⟩ := Prod.mk.inj (Option.some.inj h)
      simpa using hread
    · contradiction

theorem members_formed {fuel depth : Nat} (ih : FormedWithin fuel)
    (h : readMembers o (fuel + 1) depth cs = some (members, rest)) : ∀ m ∈ members, Read m.2 := by
  rw [readMembers] at h
  split at h
  · split at h
    · contradiction
    split at h
    · split at h
      · contradiction
      · next v r hv =>
        have hread := ih.value _ _ _ _ _ hv
        split at h
        · obtain ⟨⟨ms, r'⟩, hr, heq⟩ := Option.map_eq_some_iff.mp h
          obtain ⟨rfl, -⟩ := Prod.mk.inj heq
          exact List.forall_mem_cons.mpr ⟨hread, ih.members _ _ _ _ _ hr⟩
        · obtain ⟨rfl, -⟩ := Prod.mk.inj (Option.some.inj h)
          simpa using hread
        · contradiction
    · contradiction
  · contradiction

theorem read_formed (fuel : Nat) : FormedWithin fuel := by
  induction fuel with
  | zero => constructor <;> simp [readValue, readItems, readMembers]
  | succ fuel ih =>
    constructor
    · intro o depth cs v rest h
      exact value_formed ih h
    · intro o depth cs items rest h
      exact items_formed ih h
    · intro o depth cs members rest h
      exact members_formed ih h

theorem read_text_formed {depth : Nat} {text : String} (h : read? o depth text = some v) : Read v := by
  unfold read? at h
  dsimp only at h
  split at h
  · next hr =>
    split at h
    · obtain rfl := Option.some.inj h
      exact (read_formed _).value _ _ _ _ _ hr
    · contradiction
  · contradiction

theorem number_formed {p : List String → Prop} {text : String} (h : number? text = some v) :
    ∃ n : Numeral, v = .num (String.ofList n.chars) ∧ Formed p v := by
  unfold number? at h
  split at h
  · next ht =>
    obtain rfl := Option.some.inj h
    obtain ⟨n, rfl⟩ := number_text_sound ht
    exact ⟨n, rfl, .num n⟩
  · contradiction

theorem boxed_formed {p : List String → Prop} (h : boxed? members = some v) :
    ∃ n : Numeral, v = .num (String.ofList n.chars) ∧ Formed p v := by
  unfold boxed? at h
  split at h
  · exact number_formed h
  · contradiction

theorem unbox_all_mem {unboxed : List Json} (h : unboxAll? items = some unboxed) :
    (∀ w ∈ unboxed, ∃ v ∈ items, v.unbox? = some w) ∧ ∀ v ∈ items, ∃ w ∈ unboxed, v.unbox? = some w := by
  induction items generalizing unboxed with
  | nil =>
    obtain rfl := Option.some.inj h
    simp
  | cons v vs ih =>
    rw [unboxAll?] at h
    split at h
    · next w ws hw hws =>
      obtain rfl := Option.some.inj h
      obtain ⟨hleft, hright⟩ := ih hws
      constructor
      · intro u hu
        rcases List.mem_cons.mp hu with rfl | hu
        · exact ⟨v, List.mem_cons_self, hw⟩
        · obtain ⟨t, ht, hunbox⟩ := hleft u hu
          exact ⟨t, List.mem_cons_of_mem _ ht, hunbox⟩
      · intro t ht
        rcases List.mem_cons.mp ht with rfl | ht
        · exact ⟨w, List.mem_cons_self, hw⟩
        · obtain ⟨u, hu, hunbox⟩ := hright t ht
          exact ⟨u, List.mem_cons_of_mem _ hu, hunbox⟩
    · contradiction

theorem unbox_values_keys {unboxed : List (String × Json)} (h : unboxValues? members = some unboxed) :
    unboxed.map Prod.fst = members.map Prod.fst := by
  induction members generalizing unboxed with
  | nil =>
    obtain rfl := Option.some.inj h
    rfl
  | cons m ms ih =>
    obtain ⟨k, v⟩ := m
    rw [unboxValues?] at h
    split at h
    · next w ws hw hws =>
      obtain rfl := Option.some.inj h
      rw [List.map_cons, List.map_cons, ih hws]
    · contradiction

theorem unbox_values_mem {unboxed : List (String × Json)} (h : unboxValues? members = some unboxed) :
    (∀ n ∈ unboxed, ∃ m ∈ members, m.2.unbox? = some n.2) ∧
      ∀ m ∈ members, ∃ n ∈ unboxed, n.1 = m.1 ∧ m.2.unbox? = some n.2 := by
  induction members generalizing unboxed with
  | nil =>
    obtain rfl := Option.some.inj h
    simp
  | cons m ms ih =>
    obtain ⟨k, v⟩ := m
    rw [unboxValues?] at h
    split at h
    · next w ws hw hws =>
      obtain rfl := Option.some.inj h
      obtain ⟨hleft, hright⟩ := ih hws
      constructor
      · intro n hn
        rcases List.mem_cons.mp hn with rfl | hn
        · exact ⟨(k, v), List.mem_cons_self, hw⟩
        · obtain ⟨m, hm, hunbox⟩ := hleft n hn
          exact ⟨m, List.mem_cons_of_mem _ hm, hunbox⟩
      · intro m hm
        rcases List.mem_cons.mp hm with rfl | hm
        · exact ⟨(k, w), List.mem_cons_self, rfl, hw⟩
        · obtain ⟨n, hn, hunbox⟩ := hright m hm
          exact ⟨n, List.mem_cons_of_mem _ hn, hunbox⟩
    · contradiction

theorem unbox_formed {p : List String → Prop} (hv : Formed p v) (h : v.unbox? = some w) : Formed p w := by
  induction hv generalizing w with
  | null | bool | str | num =>
    obtain rfl := Option.some.inj h
    constructor
  | arr _ ih =>
    rw [unbox?] at h
    obtain ⟨unboxed, hu, rfl⟩ := Option.map_eq_some_iff.mp h
    refine .arr fun w hw => ?_
    obtain ⟨v, hv, hunbox⟩ := (unbox_all_mem hu).1 w hw
    exact ih v hv hunbox
  | obj hkeys _ ih =>
    rw [unbox?] at h
    split at h
    · obtain ⟨n, -, hn⟩ := boxed_formed h
      exact hn
    · obtain ⟨unboxed, hu, rfl⟩ := Option.map_eq_some_iff.mp h
      refine .obj (unbox_values_keys hu ▸ hkeys) fun n hn => ?_
      obtain ⟨m, hm, hunbox⟩ := (unbox_values_mem hu).1 n hn
      exact ih m hm hunbox

theorem set_member_keys (key : String) (v : Json) (members : List (String × Json)) :
    (setMember key v members).map Prod.fst =
      if key ∈ members.map Prod.fst then members.map Prod.fst else members.map Prod.fst ++ [key] := by
  induction members with
  | nil => simp [setMember]
  | cons m rest ih =>
    obtain ⟨k, w⟩ := m
    rw [setMember]
    by_cases hk : k = key
    · simp [hk]
    · have hk' : ¬ key = k := fun h => hk h.symm
      simp only [hk, if_false, List.map_cons, ih, List.mem_cons, hk', false_or]
      split <;> rfl

theorem set_member_nodup {key : String} (h : (members.map Prod.fst).Nodup) :
    ((setMember key v members).map Prod.fst).Nodup := by
  rw [set_member_keys]
  split
  · exact h
  · next hkey => exact List.nodup_append.mpr ⟨h, by simp, by
      rintro k hk k' hk' rfl
      exact hkey (List.mem_singleton.mp hk' ▸ hk)⟩

theorem set_member_mem {key : String} {m : String × Json} (h : m ∈ setMember key v members) :
    m.2 = v ∨ m ∈ members := by
  induction members with
  | nil =>
    rw [setMember, List.mem_singleton] at h
    exact Or.inl (h ▸ rfl)
  | cons n rest ih =>
    rw [setMember] at h
    split at h
    · rcases List.mem_cons.mp h with rfl | h
      · exact Or.inl rfl
      · exact Or.inr (List.mem_cons_of_mem _ h)
    · rcases List.mem_cons.mp h with rfl | h
      · exact Or.inr List.mem_cons_self
      · exact (ih h).imp_right (List.mem_cons_of_mem _)

theorem settle_members_invariant {p : Json → Prop} {settled : List (String × Json)}
    (hkeys : (settled.map Prod.fst).Nodup) (hsettled : ∀ m ∈ settled, p m.2)
    (hmembers : ∀ m ∈ members, p m.2) :
    ((members.foldl (fun settled m => setMember m.1 m.2 settled) settled).map Prod.fst).Nodup ∧
      ∀ m ∈ members.foldl (fun settled m => setMember m.1 m.2 settled) settled, p m.2 := by
  induction members generalizing settled with
  | nil => exact ⟨hkeys, hsettled⟩
  | cons m ms ih =>
    rw [List.forall_mem_cons] at hmembers
    refine ih (set_member_nodup hkeys) (fun n hn => ?_) hmembers.2
    rcases set_member_mem hn with hn | hn
    · rw [hn]
      exact hmembers.1
    · exact hsettled n hn

theorem settle_all_mem (h : w ∈ settleAll items) : ∃ v ∈ items, w = v.settle := by
  induction items with
  | nil => simp [settleAll] at h
  | cons v vs ih =>
    rcases List.mem_cons.mp h with rfl | h
    · exact ⟨v, List.mem_cons_self, rfl⟩
    · obtain ⟨u, hu, rfl⟩ := ih h
      exact ⟨u, List.mem_cons_of_mem _ hu, rfl⟩

theorem settle_values_mem {m : String × Json} (h : m ∈ settleValues members) :
    ∃ n ∈ members, m = (n.1, n.2.settle) := by
  induction members with
  | nil => simp [settleValues] at h
  | cons n ms ih =>
    rcases List.mem_cons.mp h with rfl | h
    · exact ⟨n, List.mem_cons_self, rfl⟩
    · obtain ⟨u, hu, rfl⟩ := ih h
      exact ⟨u, List.mem_cons_of_mem _ hu, rfl⟩

theorem settle_settled (h : Read v) : Settled v.settle := by
  induction v using induct with
  | null => exact .null
  | bool b => exact .bool b
  | str s => exact .str s
  | num literal =>
    cases h with
    | num n => exact .num n
  | arr items ih =>
    cases h with
    | arr hitems =>
      refine .arr fun w hw => ?_
      obtain ⟨v, hv, rfl⟩ := settle_all_mem hw
      exact ih v hv (hitems v hv)
  | obj members ih =>
    cases h with
    | obj _ hmembers =>
      have hvalues : ∀ m ∈ settleValues members, Settled m.2 := fun m hm => by
        obtain ⟨n, hn, rfl⟩ := settle_values_mem hm
        exact ih n hn (hmembers n hn)
      have hempty : (([] : List (String × Json)).map Prod.fst).Nodup := List.nodup_nil
      obtain ⟨hkeys, hall⟩ := settle_members_invariant hempty (by simp) hvalues
      exact .obj hkeys hall

theorem mem_of_member {name : String} (h : member? members name = some v) : (name, v) ∈ members := by
  unfold member? at h
  induction members with
  | nil => simp at h
  | cons m rest ih =>
    obtain ⟨k, w⟩ := m
    rw [List.lookup_cons] at h
    split at h
    · next hk =>
      rw [beq_iff_eq] at hk
      rw [hk, Option.some.inj h]
      exact List.mem_cons_self
    · exact List.mem_cons_of_mem _ (ih h)

theorem member_none_iff {members : List (String × Json)} {name : String} :
    member? members name = none ↔ name ∉ members.map Prod.fst := by
  rw [member?, List.lookup_eq_none_iff]
  simp only [List.mem_map, not_exists, not_and]
  constructor
  · intro h m hm hname
    simpa [hname] using h m hm
  · intro h m hm
    rw [bne_iff_ne]
    exact fun hname => h m hm hname.symm

theorem of_text_settled {text : String} (h : ofText? text = some v) : Settled v := by
  obtain ⟨u, hu, rfl⟩ := Option.map_eq_some_iff.mp h
  obtain ⟨t, ht, hunbox⟩ := Option.bind_eq_some_iff.mp hu
  exact settle_settled (unbox_formed (read_text_formed ht) hunbox)

end TypedRecords.Json
