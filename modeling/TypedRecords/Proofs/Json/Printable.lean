import TypedRecords.Proofs.Json.Formed
import TypedRecords.Proofs.Json.Layout
import TypedRecords.Proofs.Text.Lines
/-!
# The compact form is one line

The characters that could end a line are escaped wherever they can occur, so the compact form of a tree has none.
-/

namespace TypedRecords.Json

open Text Numeral

def Printable (cs : List Char) : Prop := ∀ c ∈ cs, 0x20 ≤ c.toNat

variable {cs ds : List Char} {c : Char} {v : Json} {items : List Json} {members : List (String × Json)}

@[simp] theorem printable_nil : Printable [] := List.forall_mem_nil _

@[simp] theorem printable_cons : Printable (c :: cs) ↔ 0x20 ≤ c.toNat ∧ Printable cs := List.forall_mem_cons

@[simp] theorem printable_append : Printable (cs ++ ds) ↔ Printable cs ∧ Printable ds := List.forall_mem_append

theorem printable_digits (h : cs.all isDigit = true) : Printable cs := by
  intro c hc
  have := (is_digit_iff.mp (List.all_eq_true.mp h c hc)).1
  omega

theorem hex_digit_printable (n : Nat) : 0x20 ≤ (hexDigit n).toNat := by
  have hall : ∀ k < 16, 0x20 ≤ (Nat.digitChar k).toNat := by decide
  exact hall (n % 16) (Nat.mod_lt n (by decide))

theorem escape_char_printable (c : Char) : Printable (escapeChar c) := by
  unfold escapeChar
  split
  · simp
  split
  · simp
  split
  · split
    · simp
    · simp
    · simp
    · split
      · simp
      split
      · simp
      · simp [hexByte, hex_digit_printable]
  · next hcontrol =>
    rw [printable_cons]
    exact ⟨not_lt.mp hcontrol, printable_nil⟩

theorem quote_printable (s : String) : Printable (quote s) := by
  have hescape : Printable (escape s.toList) := by
    intro c hc
    obtain ⟨d, -, hc⟩ := List.mem_flatMap.mp hc
    exact escape_char_printable d c hc
  simp [quote, hescape]

theorem numeral_printable (n : Numeral) : Printable n.chars := by
  have hwhole := printable_digits n.whole_run.2
  have hfraction := printable_digits n.fraction_all
  have hexponent : Printable (exponentChars n.exponent) := by
    cases hexp : n.exponent with
    | none => simp [exponentChars]
    | some e =>
      have hdigits := printable_digits (n.exponent_run e hexp).2
      simp only [exponentChars, printable_cons]
      exact ⟨by decide, by split <;> decide, hdigits⟩
  have hsign : Printable (signChars n.negative) := by
    unfold signChars
    split <;> simp
  have hpoint : Printable (fractionChars n.fraction) := by
    unfold fractionChars
    split <;> simp [hfraction]
  simp [chars, hsign, hwhole, hpoint, hexponent]

theorem items_printable (h : ∀ v ∈ items, Printable v.compactChars) : Printable (compactItems items) := by
  induction items with
  | nil => simp [compactItems]
  | cons v vs ih =>
    rw [List.forall_mem_cons] at h
    simp [compactItems, h.1, ih h.2]

theorem members_printable (h : ∀ m ∈ members, Printable m.2.compactChars) : Printable (compactMembers members) := by
  induction members with
  | nil => simp [compactMembers]
  | cons m ms ih =>
    rw [List.forall_mem_cons] at h
    simp [compactMembers, quote_printable, h.1, ih h.2]

theorem compact_printable (h : Read v) : Printable v.compactChars := by
  induction h with
  | null => simp [compactChars]
  | bool b => cases b <;> simp [compactChars]
  | str s => exact quote_printable s
  | num n =>
    rw [compactChars, String.toList_ofList]
    exact numeral_printable n
  | @arr items _ ih =>
    cases items with
    | nil => simp [compactChars]
    | cons v vs =>
      rw [List.forall_mem_cons] at ih
      simp [compactChars, ih.1, items_printable ih.2]
  | @obj members _ _ ih =>
    cases members with
    | nil => simp [compactChars]
    | cons m ms =>
      rw [List.forall_mem_cons] at ih
      simp [compactChars, quote_printable, ih.1, members_printable ih.2]

theorem compact_is_line (h : Read v) : IsLine v.compact := by
  have hprintable : Printable v.compact.toList := by
    rw [compact, String.toList_ofList]
    exact compact_printable h
  constructor
  · intro hfeed
    exact absurd (hprintable _ hfeed) (by decide)
  · intro hreturn
    exact absurd (hprintable _ (List.mem_of_getLast? hreturn)) (by decide)

theorem object_not_blank (members : List (String × Json)) : trim (obj members).compact.toList ≠ [] := by
  rw [compact, String.toList_ofList]
  cases members with
  | nil => exact trim_ne_nil (by decide)
  | cons m ms => exact trim_ne_nil (by decide)

end TypedRecords.Json
