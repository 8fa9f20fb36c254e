import TypedRecords.Json.Document
import TypedRecords.Proofs.Json.Layout
import TypedRecords.Proofs.Json.Quote
/-!
# Reading written trees

Under every layout, the text of a tree is read as the tree that it was written from if the tree does not nest too
deep for the reader, and is not read at all if it does.
-/

namespace TypedRecords.Json

variable {v w : Json} {cs rest blanks : List Char} {items : List Json} {members : List (String × Json)} {o : Outline}

section Blanks

theorem skip_space_cons {c : Char} (h : isSpace c = false) : skipSpace (c :: cs) = c :: cs := by
  simp [skipSpace, h]

theorem skip_space_append (h : blanks.all isSpace = true) : skipSpace (blanks ++ cs) = skipSpace cs :=
  List.dropWhile_append_of_pos (List.all_eq_true.mp h)

theorem space_not_goes_on {c : Char} (h : isSpace c = true) : goesOn c = false := by
  simp only [isSpace, Bool.or_eq_true, beq_iff_eq] at h
  rcases h with ((rfl | rfl) | rfl) | rfl
  all_goals rfl

theorem blanks_not_goes_on (h : blanks.all isSpace = true) (hrest : rest.head?.any goesOn = false) :
    (blanks ++ rest).head?.any goesOn = false := by
  cases blanks with
  | nil => exact hrest
  | cons c cs =>
    rw [List.all_cons, Bool.and_eq_true] at h
    simpa using space_not_goes_on h.1

theorem skip_quote (h : blanks.all isSpace = true) (key : String) :
    skipSpace (blanks ++ (quote key ++ cs)) = quote key ++ cs := by
  rw [skip_space_append h, quote_eq, skip_space_cons rfl]

theorem read_value_blanks (h : blanks.all isSpace = true) (fuel depth : Nat) :
    readValue o fuel depth (blanks ++ cs) = readValue o fuel depth cs := by
  cases fuel with
  | zero => rw [readValue, readValue]
  | succ fuel => rw [readValue, readValue, skip_space_append h]

end Blanks

inductive Outline.Covers : Outline → Json → Prop where
  | all (v : Json) : Covers .all v
  | items {each : Outline} {items : List Json} (h : ∀ v ∈ items, Covers each v) : Covers (.items each) (.arr items)
  | entries {known : List (String × Outline)} {members : List (String × Json)}
      (h : ∀ m ∈ members, Covers (member m.1 (.entries known)) m.2) : Covers (.entries known) (.obj members)

namespace Outline

theorem Covers.room (h : o.Covers v) (depth : Nat) : o.room depth = depth := by
  cases h <;> rfl

theorem Covers.string_text (h : o.Covers v) (s : String) :
    stringText o (escape s.toList ++ '"' :: rest) = some (s, rest) := by
  cases h <;> exact string_text_quote s

theorem Covers.cons {vs : List Json} (h : o.Covers (.arr (v :: vs))) :
    o.head.Covers v ∧ o.tail.Covers (.arr vs) := by
  cases h with
  | all => exact ⟨.all v, .all _⟩
  | items h =>
    rw [List.forall_mem_cons] at h
    exact ⟨h.1, .items h.2⟩

theorem Covers.member {k : String} (h : o.Covers (.obj ((k, v) :: members))) :
    (o.member k).Covers v ∧ o.Covers (.obj members) := by
  cases h with
  | all => exact ⟨.all v, .all _⟩
  | entries h =>
    rw [List.forall_mem_cons] at h
    exact ⟨h.1, .entries h.2⟩

end Outline

theorem read_number (n : Numeral) (o : Outline) (fuel depth : Nat) (hrest : rest.head?.any goesOn = false) :
    readValue o (fuel + 1) depth (n.chars ++ rest) = some (.num (String.ofList n.chars), rest) := by
  obtain ⟨c, cs, hcs, hc⟩ := numeral_head n
  have hnumber := number_text_complete n hrest
  have hopens : opens c = true := by
    rcases hc with rfl | hc
    · rfl
    · simp [opens, hc]
  have hne : c ≠ 'n' ∧ c ≠ 't' ∧ c ≠ 'f' ∧ c ≠ '"' ∧ c ≠ '[' ∧ c ≠ '\x7b' := by
    refine ⟨?_, ?_, ?_, ?_, ?_, ?_⟩
    all_goals
      rintro rfl
      rcases hc with hc | hc
      all_goals exact absurd hc (by decide)
  rw [hcs, List.cons_append] at hnumber ⊢
  rw [readValue, skip_space_cons (opens_not_space hopens).1]
  split
  · next heq => exact absurd (List.cons.inj heq).1 hne.1
  · next heq => exact absurd (List.cons.inj heq).1 hne.2.1
  · next heq => exact absurd (List.cons.inj heq).1 hne.2.2.1
  · next heq => exact absurd (List.cons.inj heq).1 hne.2.2.2.1
  · next heq => exact absurd (List.cons.inj heq).1 hne.2.2.2.2.1
  · next heq => exact absurd (List.cons.inj heq).1 hne.2.2.2.2.2
  · rw [hnumber]
    rfl

section Steps

variable {fuel depth : Nat} {key : String} {after : List Char}

theorem read_array_deep (ho : o.Covers v) : readValue o (fuel + 1) 0 ('[' :: cs) = none := by
  rw [readValue, skip_space_cons rfl]
  simp only [ho.room]

theorem read_array_empty (ho : o.Covers v) :
    readValue o (fuel + 1) (depth + 1) ('[' :: ']' :: rest) = some (.arr [], rest) := by
  have hclose : skipSpace (']' :: rest) = ']' :: rest := skip_space_cons rfl
  rw [readValue, skip_space_cons rfl]
  simp only [ho.room, hclose]

theorem read_array_items (ho : o.Covers v) {c : Char} (hc : opens c = true) (hblanks : blanks.all isSpace = true) :
    readValue o (fuel + 1) (depth + 1) ('[' :: (blanks ++ c :: cs)) =
      (readItems o fuel depth (c :: cs)).map fun (vs, r) => (.arr vs, r) := by
  obtain ⟨hspace, hclose, -⟩ := opens_not_space hc
  rw [readValue, skip_space_cons rfl]
  simp only [ho.room, skip_space_append hblanks, skip_space_cons hspace]
  split
  · next heq => exact absurd (List.cons.inj heq).1 hclose
  · rfl

theorem read_object_deep (ho : o.Covers v) : readValue o (fuel + 1) 0 ('\x7b' :: cs) = none := by
  rw [readValue, skip_space_cons rfl]
  simp only [ho.room]

theorem read_object_empty (ho : o.Covers v) :
    readValue o (fuel + 1) (depth + 1) ('\x7b' :: '\x7d' :: rest) = some (.obj [], rest) := by
  have hclose : skipSpace ('\x7d' :: rest) = '\x7d' :: rest := skip_space_cons rfl
  rw [readValue, skip_space_cons rfl]
  simp only [ho.room, hclose]

theorem read_object_members (ho : o.Covers v) (hblanks : blanks.all isSpace = true) :
    readValue o (fuel + 1) (depth + 1) ('\x7b' :: (blanks ++ (quote key ++ cs))) =
      (readMembers o fuel depth (quote key ++ cs)).map fun (ms, r) => (.obj ms, r) := by
  rw [readValue, skip_space_cons rfl]
  simp only [ho.room, skip_quote hblanks]
  split
  · next heq =>
    rw [quote_eq] at heq
    exact absurd (List.cons.inj heq).1 (by decide)
  · rfl

theorem read_items_fail (hv : readValue o.head fuel depth cs = none) : readItems o (fuel + 1) depth cs = none := by
  simp only [readItems, hv]

theorem read_items_last (hv : readValue o.head fuel depth cs = some (v, after)) (h : skipSpace after = ']' :: rest) :
    readItems o (fuel + 1) depth cs = some ([v], rest) := by
  simp only [readItems, hv, h]

theorem read_items_more (hv : readValue o.head fuel depth cs = some (v, after)) (h : skipSpace after = ',' :: rest) :
    readItems o (fuel + 1) depth cs = (readItems o.tail fuel depth rest).map fun (vs, r) => (v :: vs, r) := by
  simp only [readItems, hv, h]

theorem read_members_fail (hcs : skipSpace cs = quote key ++ ':' :: after) (ho : o.Covers v)
    (hv : readValue (o.member key) fuel depth after = none) : readMembers o (fuel + 1) depth cs = none := by
  have hcolon : skipSpace (':' :: after) = ':' :: after := skip_space_cons rfl
  rw [quote_eq] at hcs
  simp only [readMembers, hcs, ho.string_text, hcolon, hv]

theorem read_members_last {behind : List Char} (hcs : skipSpace cs = quote key ++ ':' :: after) (ho : o.Covers v)
    (hv : readValue (o.member key) fuel depth after = some (w, behind)) (h : skipSpace behind = '\x7d' :: rest) :
    readMembers o (fuel + 1) depth cs = some ([(key, w)], rest) := by
  have hcolon : skipSpace (':' :: after) = ':' :: after := skip_space_cons rfl
  rw [quote_eq] at hcs
  simp only [readMembers, hcs, ho.string_text, hcolon, hv, h]

theorem read_members_more {behind : List Char} (hcs : skipSpace cs = quote key ++ ':' :: after) (ho : o.Covers v)
    (hv : readValue (o.member key) fuel depth after = some (w, behind)) (h : skipSpace behind = ',' :: rest) :
    readMembers o (fuel + 1) depth cs =
      (readMembers o fuel depth rest).map fun (ms, r) => ((key, w) :: ms, r) := by
  have hcolon : skipSpace (':' :: after) = ':' :: after := skip_space_cons rfl
  rw [quote_eq] at hcs
  simp only [readMembers, hcs, ho.string_text, hcolon, hv, h]

end Steps

/-- In front of anything that does not carry on a number, a value is read from its text up to the depth that the
reader allows. -/
def ReadsBack (l : Layout) (v : Json) : Prop :=
  ∀ (o : Outline) level fuel depth rest, o.Covers v → 2 * (l.chars level v).length ≤ fuel →
    rest.head?.any goesOn = false →
      readValue o fuel depth (l.chars level v ++ rest) = if v.depth ≤ depth then some (v, rest) else none

variable {l : Layout}

theorem close_not_goes_on (l : Layout) (level : Nat) {c : Char} (hc : goesOn c = false) :
    (l.line level ++ c :: rest).head?.any goesOn = false :=
  blanks_not_goes_on (l.line_blank level) (by simpa using hc)

theorem skip_line (l : Layout) (level : Nat) {c : Char} (hc : isSpace c = false) :
    skipSpace (l.line level ++ c :: rest) = c :: rest := by
  rw [skip_space_append (l.line_blank level), skip_space_cons hc]

theorem read_items_back (level : Nat) (v : Json) (items : List Json) (h : ∀ w ∈ v :: items, ReadsBack l w) :
    ∀ (o : Outline) fuel depth blanks rest, o.Covers (.arr (v :: items)) → blanks.all isSpace = true →
      2 * ((l.chars (level + 1) v).length + (l.itemChars level items).length) ≤ fuel →
      readItems o fuel depth (blanks ++ (l.chars (level + 1) v ++ (l.itemChars level items ++ rest))) =
        if itemsDepth (v :: items) ≤ depth then some (v :: items, rest) else none := by
  -- The first item that is too deep ends the reading, so both outcomes go through one induction.
  induction items generalizing v with
  | nil =>
    intro o fuel depth blanks rest ho hblanks hfuel
    simp only [Layout.itemChars, List.length_append, List.length_singleton] at hfuel
    obtain ⟨fuel, rfl⟩ : ∃ n, fuel = n + 1 := ⟨fuel - 1, by omega⟩
    have hv := h v List.mem_cons_self o.head (level + 1) fuel depth (l.line level ++ ']' :: rest) ho.cons.1
      (by omega) (close_not_goes_on l level rfl)
    rw [← read_value_blanks hblanks] at hv
    simp only [Layout.itemChars, List.append_assoc, List.cons_append, List.nil_append]
    rw [itemsDepth, itemsDepth, Nat.max_zero]
    by_cases hdepth : v.depth ≤ depth
    · rw [if_pos hdepth] at hv ⊢
      exact read_items_last hv (skip_line l level rfl)
    · rw [if_neg hdepth] at hv ⊢
      exact read_items_fail hv
  | cons w ws ih =>
    intro o fuel depth blanks rest ho hblanks hfuel
    simp only [Layout.itemChars, List.length_cons, List.length_append] at hfuel
    obtain ⟨fuel, rfl⟩ : ∃ n, fuel = n + 1 := ⟨fuel - 1, by omega⟩
    have hv := h v List.mem_cons_self o.head (level + 1) fuel depth
      (',' :: (l.line (level + 1) ++ (l.chars (level + 1) w ++ (l.itemChars level ws ++ rest)))) ho.cons.1
      (by omega) rfl
    have hws := ih w (fun u hu => h u (List.mem_cons_of_mem _ hu)) o.tail fuel depth (l.line (level + 1)) rest
      ho.cons.2 (l.line_blank _) (by omega)
    rw [← read_value_blanks hblanks] at hv
    simp only [Layout.itemChars, List.append_assoc, List.cons_append]
    rw [itemsDepth]
    by_cases hdepth : v.depth ≤ depth
    · rw [if_pos hdepth] at hv
      rw [read_items_more hv (skip_space_cons rfl), hws, Option.map_if]
      exact if_congr (Nat.max_le.trans (and_iff_right hdepth)).symm rfl rfl
    · rw [if_neg hdepth] at hv
      rw [if_neg fun hmax => hdepth (Nat.max_le.mp hmax).1]
      exact read_items_fail hv

theorem read_members_back (level : Nat) (k : String) (v : Json) (members : List (String × Json))
    (h : ∀ m ∈ (k, v) :: members, ReadsBack l m.2) :
    ∀ (o : Outline) fuel depth blanks rest, o.Covers (.obj ((k, v) :: members)) → blanks.all isSpace = true →
      2 * ((l.chars (level + 1) v).length + (l.memberChars level members).length + 1) ≤ fuel →
      readMembers o fuel depth
          (blanks ++ (quote k ++ ':' :: (l.gap ++ (l.chars (level + 1) v ++ (l.memberChars level members ++ rest))))) =
        if membersDepth ((k, v) :: members) ≤ depth then some ((k, v) :: members, rest) else none := by
  induction members generalizing k v with
  | nil =>
    intro o fuel depth blanks rest ho hblanks hfuel
    simp only [Layout.memberChars, List.length_append, List.length_singleton] at hfuel
    obtain ⟨fuel, rfl⟩ : ∃ n, fuel = n + 1 := ⟨fuel - 1, by omega⟩
    have hv := h (k, v) List.mem_cons_self (o.member k) (level + 1) fuel depth (l.line level ++ '\x7d' :: rest)
      ho.member.1 (by dsimp only; omega) (close_not_goes_on l level rfl)
    rw [← read_value_blanks l.gap_blank] at hv
    simp only [Layout.memberChars, List.append_assoc, List.cons_append, List.nil_append]
    rw [membersDepth, membersDepth, Nat.max_zero]
    by_cases hdepth : v.depth ≤ depth
    · rw [if_pos hdepth] at hv ⊢
      exact read_members_last (skip_quote hblanks k) ho hv (skip_line l level rfl)
    · rw [if_neg hdepth] at hv ⊢
      exact read_members_fail (skip_quote hblanks k) ho hv
  | cons m ms ih =>
    obtain ⟨k', v'⟩ := m
    intro o fuel depth blanks rest ho hblanks hfuel
    simp only [Layout.memberChars, List.length_cons, List.length_append] at hfuel
    obtain ⟨fuel, rfl⟩ : ∃ n, fuel = n + 1 := ⟨fuel - 1, by omega⟩
    have hv := h (k, v) List.mem_cons_self (o.member k) (level + 1) fuel depth
      (',' :: (l.line (level + 1) ++ (quote k' ++ ':' :: (l.gap ++ (l.chars (level + 1) v' ++
        (l.memberChars level ms ++ rest)))))) ho.member.1 (by dsimp only; omega) rfl
    have hms := ih k' v' (fun u hu => h u (List.mem_cons_of_mem _ hu)) o fuel depth (l.line (level + 1)) rest
      ho.member.2 (l.line_blank _) (by omega)
    rw [← read_value_blanks l.gap_blank] at hv
    simp only [Layout.memberChars, List.append_assoc, List.cons_append]
    rw [membersDepth]
    by_cases hdepth : v.depth ≤ depth
    · rw [if_pos hdepth] at hv
      rw [read_members_more (skip_quote hblanks k) ho hv (skip_space_cons rfl), hms, Option.map_if]
      exact if_congr (Nat.max_le.trans (and_iff_right hdepth)).symm rfl rfl
    · rw [if_neg hdepth] at hv
      rw [if_neg fun hmax => hdepth (Nat.max_le.mp hmax).1]
      exact read_members_fail (skip_quote hblanks k) ho hv

theorem array_reads_back (hitems : ∀ v ∈ items, Read v) (h : ∀ v ∈ items, ReadsBack l v) :
    ReadsBack l (.arr items) := by
  intro o level fuel depth rest ho hfuel _
  cases items with
  | nil =>
    obtain ⟨fuel, rfl⟩ : ∃ n, fuel = n + 1 := ⟨fuel - 1, by simp [Layout.chars] at hfuel; omega⟩
    cases depth with
    | zero => exact read_array_deep ho
    | succ depth =>
      rw [if_pos (by simp [Json.depth, itemsDepth])]
      exact read_array_empty ho
  | cons v vs =>
    simp only [Layout.chars, List.length_cons, List.length_append] at hfuel
    obtain ⟨fuel, rfl⟩ : ∃ n, fuel = n + 1 := ⟨fuel - 1, by omega⟩
    cases depth with
    | zero => exact read_array_deep ho
    | succ depth =>
      obtain ⟨c, cs, hcs, hc⟩ := l.chars_head (level + 1) (hitems v List.mem_cons_self)
      have hread := read_items_back level v vs h o fuel depth [] rest ho rfl (by omega)
      rw [Layout.chars, List.cons_append, List.append_assoc, List.append_assoc]
      rw [List.nil_append, hcs, List.cons_append] at hread
      rw [hcs, List.cons_append, read_array_items ho hc (l.line_blank _), hread, Option.map_if, Json.depth]
      exact if_congr Nat.succ_le_succ_iff.symm rfl rfl

theorem object_reads_back (h : ∀ m ∈ members, ReadsBack l m.2) : ReadsBack l (.obj members) := by
  intro o level fuel depth rest ho hfuel _
  cases members with
  | nil =>
    obtain ⟨fuel, rfl⟩ : ∃ n, fuel = n + 1 := ⟨fuel - 1, by simp [Layout.chars] at hfuel; omega⟩
    cases depth with
    | zero => exact read_object_deep ho
    | succ depth =>
      rw [if_pos (by simp [Json.depth, membersDepth])]
      exact read_object_empty ho
  | cons m ms =>
    obtain ⟨k, v⟩ := m
    simp only [Layout.chars, List.length_cons, List.length_append] at hfuel
    obtain ⟨fuel, rfl⟩ : ∃ n, fuel = n + 1 := ⟨fuel - 1, by omega⟩
    cases depth with
    | zero => exact read_object_deep ho
    | succ depth =>
      have hread := read_members_back level k v ms h o fuel depth [] rest ho rfl (by omega)
      rw [List.nil_append] at hread
      simp only [Layout.chars, List.cons_append, List.append_assoc]
      rw [read_object_members ho (l.line_blank _), hread, Option.map_if, Json.depth]
      exact if_congr Nat.succ_le_succ_iff.symm rfl rfl

theorem reads_back (l : Layout) (h : Read v) : ReadsBack l v := by
  induction v using induct with
  | null =>
    intro o level fuel depth rest _ hfuel _
    obtain ⟨fuel, rfl⟩ : ∃ n, fuel = n + 1 := ⟨fuel - 1, by simp [Layout.chars, compactChars] at hfuel; omega⟩
    rfl
  | bool b =>
    intro o level fuel depth rest _ hfuel _
    obtain ⟨fuel, rfl⟩ : ∃ n, fuel = n + 1 :=
      ⟨fuel - 1, by cases b <;> simp [Layout.chars, compactChars] at hfuel <;> omega⟩
    cases b <;> rfl
  | num literal =>
    cases h with
    | num n =>
      intro o level fuel depth rest _ hfuel hrest
      obtain ⟨c, cs, hcs, -⟩ := numeral_head n
      rw [Layout.chars_num, String.toList_ofList] at hfuel ⊢
      obtain ⟨fuel, rfl⟩ : ∃ n, fuel = n + 1 := ⟨fuel - 1, by simp [hcs] at hfuel; omega⟩
      have hdepth : (Json.num (String.ofList n.chars)).depth ≤ depth := Nat.zero_le _
      rw [if_pos hdepth]
      exact read_number n o fuel depth hrest
  | str s =>
    intro o level fuel depth rest ho hfuel _
    obtain ⟨fuel, rfl⟩ : ∃ n, fuel = n + 1 :=
      ⟨fuel - 1, by simp [Layout.chars_str, quote] at hfuel; omega⟩
    have hdepth : (Json.str s).depth ≤ depth := Nat.zero_le _
    rw [Layout.chars_str, quote_eq, readValue, skip_space_cons rfl, if_pos hdepth]
    simp only [ho.string_text, Option.map_some]
  | arr items ih =>
    cases h with
    | arr hitems => exact array_reads_back hitems fun v hv => ih v hv (hitems v hv)
  | obj members ih =>
    cases h with
    | obj _ hmembers => exact object_reads_back fun m hm => ih m hm (hmembers m hm)

theorem read_layout (l : Layout) (level : Nat) (h : Read v) (ho : o.Covers v) (hblanks : blanks.all isSpace = true)
    (depth : Nat) :
    read? o depth (String.ofList (l.chars level v ++ blanks)) = if v.depth ≤ depth then some v else none := by
  have hend : blanks.head?.any goesOn = false := by
    have hnone : ([] : List Char).head?.any goesOn = false := rfl
    simpa using blanks_not_goes_on hblanks hnone
  have hread := reads_back l h o level (2 * (l.chars level v ++ blanks).length + 2) depth blanks ho
    (by rw [List.length_append]; omega) hend
  have hskip : skipSpace blanks = [] := by
    have happend : skipSpace (blanks ++ []) = skipSpace [] := skip_space_append hblanks
    simpa [skipSpace] using happend
  rw [read?, String.toList_ofList]
  simp only [hread]
  by_cases hdepth : v.depth ≤ depth
  · simp [if_pos hdepth, hskip]
  · simp [if_neg hdepth]

theorem document_layout (l : Layout) (level : Nat) (h : Read v) (ho : o.Covers v)
    (hblanks : blanks.all isSpace = true) :
    document? o (String.ofList (l.chars level v ++ blanks)) = if v.depth ≤ maxNesting then some v else none := by
  rw [document?, read_layout l level h (.all v) hblanks, read_layout l level h ho hblanks]
  by_cases hdepth : v.depth ≤ maxNesting
  · rw [if_pos hdepth, Option.some_or]
  · rw [if_neg hdepth, Option.none_or]

theorem read_compact_within (h : Read v) (depth : Nat) :
    read? .all depth v.compact = if v.depth ≤ depth then some v else none := by
  have hblanks : ([] : List Char).all isSpace = true := rfl
  have hread := read_layout .compact 0 h (.all v) hblanks depth
  rw [List.append_nil, Layout.compact_chars] at hread
  exact hread

theorem read_compact (h : Read v) (hdepth : v.depth ≤ maxNesting) :
    read? .all maxNesting v.compact = some v := by
  rw [read_compact_within h, if_pos hdepth]

end TypedRecords.Json
