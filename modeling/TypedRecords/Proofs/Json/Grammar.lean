import Mathlib.Data.List.Forall2
import TypedRecords.Proofs.Json.Formed
import TypedRecords.Proofs.Json.Quote
/-!
# The grammar of compact texts

The JSON texts without any blank, with numbers as they are kept, and the tree that each is the text of. The grammar
knows neither the writer nor the reader, and the writer keeps to it.
-/

namespace TypedRecords.Json

open Text (hexValue? hexDigit hexByte)

def UnitText (n : Nat) (text : List Char) : Prop :=
  ∃ i j k l, text.mapM hexValue? = some [i, j, k, l] ∧ n = 16 * (16 * (16 * i + j) + k) + l

/-- A character of a string: as it is, by an escape of its own, by its code unit, or by the two halves of a pair. -/
inductive CharText : Char → List Char → Prop where
  | plain {c} : c ≠ '"' → c ≠ '\\' → 0x20 ≤ c.toNat → CharText c [c]
  | escaped {c e} : simpleEscape? e = some c → CharText c ['\\', e]
  | unit {n text} : UnitText n text → n < 0xD800 ∨ 0xE000 ≤ n → CharText (Char.ofNat n) ('\\' :: 'u' :: text)
  | pair {high low first second} : UnitText high first → UnitText low second → 0xD800 ≤ high ∧ high < 0xDC00 →
      0xDC00 ≤ low ∧ low < 0xE000 →
      CharText (Char.ofNat (0x10000 + (high - 0xD800) * 0x400 + (low - 0xDC00)))
        ('\\' :: 'u' :: (first ++ '\\' :: 'u' :: second))

def StringText (s : String) (text : List Char) : Prop :=
  ∃ parts, List.Forall₂ CharText s.toList parts ∧ text = '"' :: (parts.flatten ++ ['"'])

mutual

inductive TreeText : Json → List Char → Prop where
  | null : TreeText .null ['n', 'u', 'l', 'l']
  | yes : TreeText (.bool true) ['t', 'r', 'u', 'e']
  | no : TreeText (.bool false) ['f', 'a', 'l', 's', 'e']
  | num (n : Numeral) : TreeText (.num (String.ofList n.chars)) n.chars
  | str {s text} : StringText s text → TreeText (.str s) text
  | noItems : TreeText (.arr []) ['[', ']']
  | items {vs text} : ItemsText vs text → TreeText (.arr vs) ('[' :: (text ++ [']']))
  | noMembers : TreeText (.obj []) ['\x7b', '\x7d']
  | members {ms text} : MembersText ms text → TreeText (.obj ms) ('\x7b' :: (text ++ ['\x7d']))

inductive ItemsText : List Json → List Char → Prop where
  | one {v text} : TreeText v text → ItemsText [v] text
  | more {v vs text others} : TreeText v text → ItemsText vs others → ItemsText (v :: vs) (text ++ ',' :: others)

inductive MembersText : List (String × Json) → List Char → Prop where
  | one {k v key text} : StringText k key → TreeText v text → MembersText [(k, v)] (key ++ ':' :: text)
  | more {k v ms key text others} : StringText k key → TreeText v text → MembersText ms others →
      MembersText ((k, v) :: ms) (key ++ ':' :: (text ++ ',' :: others))

end

variable {v : Json} {items : List Json} {members : List (String × Json)}

theorem control_text {c : Char} (h : c.toNat < 0x20) :
    CharText c ('\\' :: 'u' :: '0' :: '0' :: hexByte c.toNat) := by
  have hzero : hexValue? '0' = some 0 := by decide
  have hdigits : ('0' :: '0' :: hexByte c.toNat).mapM hexValue? = some [0, 0, c.toNat / 16 % 16, c.toNat % 16] := by
    simp [hexByte, hzero, hex_value_digit]
  have hunit : UnitText c.toNat ('0' :: '0' :: hexByte c.toNat) := ⟨_, _, _, _, hdigits, by omega⟩
  have htext := CharText.unit hunit (Or.inl (by omega))
  rwa [Char.ofNat_toNat] at htext

theorem escape_char_text (c : Char) : CharText c (escapeChar c) := by
  unfold escapeChar
  split
  · next h =>
    subst h
    exact .escaped rfl
  split
  · next h =>
    subst h
    exact .escaped rfl
  split
  · next hcontrol =>
    split
    · exact .escaped rfl
    · exact .escaped rfl
    · exact .escaped rfl
    split
    · next h =>
      have hc : c = Char.ofNat 0x08 := by rw [← h, Char.ofNat_toNat]
      exact .escaped (hc ▸ rfl)
    split
    · next h =>
      have hc : c = Char.ofNat 0x0C := by rw [← h, Char.ofNat_toNat]
      exact .escaped (hc ▸ rfl)
    · exact control_text hcontrol
  · next hquote hslash hcontrol => exact .plain hquote hslash (Nat.not_lt.mp hcontrol)

theorem quote_text (s : String) : StringText s (quote s) := by
  refine ⟨s.toList.map escapeChar, ?_, ?_⟩
  · rw [List.forall₂_map_right_iff, List.forall₂_same]
    exact fun c _ => escape_char_text c
  · rw [quote, escape, List.flatMap_def]

/-- The writer puts each comma in front of the next item, and the bracket behind the last one. -/
theorem items_text (hv : TreeText v v.compactChars) (h : ∀ w ∈ items, TreeText w w.compactChars) :
    ∃ text, ItemsText (v :: items) text ∧ v.compactChars ++ compactItems items = text ++ [']'] := by
  induction items generalizing v with
  | nil => exact ⟨v.compactChars, .one hv, rfl⟩
  | cons w ws ih =>
    rw [List.forall_mem_cons] at h
    obtain ⟨others, hothers, heq⟩ := ih h.1 h.2
    refine ⟨v.compactChars ++ ',' :: others, .more hv hothers, ?_⟩
    rw [compactItems, heq, List.append_assoc, List.cons_append]

theorem members_text {k : String} (hv : TreeText v v.compactChars)
    (h : ∀ m ∈ members, TreeText m.2 m.2.compactChars) :
    ∃ text, MembersText ((k, v) :: members) text ∧
      quote k ++ ':' :: (v.compactChars ++ compactMembers members) = text ++ ['\x7d'] := by
  induction members generalizing k v with
  | nil =>
    refine ⟨quote k ++ ':' :: v.compactChars, .one (quote_text k) hv, ?_⟩
    rw [compactMembers, List.append_assoc, List.cons_append]
  | cons m ms ih =>
    rw [List.forall_mem_cons] at h
    obtain ⟨others, hothers, heq⟩ := ih (k := m.1) h.1 h.2
    refine ⟨quote k ++ ':' :: (v.compactChars ++ ',' :: others), .more (quote_text k) hv hothers, ?_⟩
    rw [compactMembers, heq]
    simp only [List.append_assoc, List.cons_append]

theorem compact_text (h : Read v) : TreeText v v.compactChars := by
  induction h with
  | null => exact .null
  | bool b =>
    cases b with
    | true => exact .yes
    | false => exact .no
  | str s => exact .str (quote_text s)
  | num n =>
    rw [compactChars, String.toList_ofList]
    exact .num n
  | @arr items _ ih =>
    cases items with
    | nil => exact .noItems
    | cons v vs =>
      rw [List.forall_mem_cons] at ih
      obtain ⟨text, htext, heq⟩ := items_text ih.1 ih.2
      rw [compactChars, heq]
      exact .items htext
  | @obj members _ _ ih =>
    cases members with
    | nil => exact .noMembers
    | cons m ms =>
      rw [List.forall_mem_cons] at ih
      obtain ⟨text, htext, heq⟩ := members_text (k := m.1) ih.1 ih.2
      rw [compactChars, heq]
      exact .members htext

end TypedRecords.Json
