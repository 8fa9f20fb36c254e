import TypedRecords.Json.Writer
import TypedRecords.Proofs.Json.Formed
/-!
# Layouts

The compact text and the indented text of a tree differ in their blanks only: they are one text under two layouts.
-/

namespace TypedRecords.Json

open Text (isDigit)

variable {v : Json}

theorem numeral_head (n : Numeral) : ∃ c cs, n.chars = c :: cs ∧ (c = '-' ∨ isDigit c = true) := by
  obtain ⟨hne, hall⟩ := n.whole_run
  unfold Numeral.chars
  cases n.negative with
  | true => exact ⟨'-', _, rfl, Or.inl rfl⟩
  | false =>
    cases hw : n.whole with
    | nil => exact absurd hw hne
    | cons c cs =>
      rw [hw, List.all_cons, Bool.and_eq_true] at hall
      exact ⟨c, _, rfl, Or.inr hall.1⟩

def opens (c : Char) : Bool :=
  c == 'n' || c == 't' || c == 'f' || c == '"' || c == '[' || c == '\x7b' || c == '-' || isDigit c

theorem opens_not_space {c : Char} (h : opens c = true) : isSpace c = false ∧ c ≠ ']' ∧ c ≠ '\x7d' := by
  refine ⟨?_, ?_, ?_⟩
  · rw [Bool.eq_false_iff]
    intro hs
    simp only [isSpace, Bool.or_eq_true, beq_iff_eq] at hs
    rcases hs with ((rfl | rfl) | rfl) | rfl
    all_goals exact absurd h (by decide)
  · rintro rfl
    exact absurd h (by decide)
  · rintro rfl
    exact absurd h (by decide)

/-- Where a text has blanks: in front of the parts of an array or object and of its closing bracket, by their level,
and behind a colon. -/
structure Layout where
  line : Nat → List Char
  gap : List Char
  line_blank : ∀ level, (line level).all isSpace = true
  gap_blank : gap.all isSpace = true

namespace Layout

mutual

def chars (l : Layout) (level : Nat) : Json → List Char
  | .arr [] => ['[', ']']
  | .arr (v :: vs) => '[' :: (l.line (level + 1) ++ (chars l (level + 1) v ++ itemChars l level vs))
  | .obj [] => ['{', '}']
  | .obj ((k, v) :: rest) =>
    '{' :: (l.line (level + 1) ++ (quote k ++ ':' :: (l.gap ++ (chars l (level + 1) v ++ memberChars l level rest))))
  | v => v.compactChars

def itemChars (l : Layout) (level : Nat) : List Json → List Char
  | [] => l.line level ++ [']']
  | v :: vs => ',' :: (l.line (level + 1) ++ (chars l (level + 1) v ++ itemChars l level vs))

def memberChars (l : Layout) (level : Nat) : List (String × Json) → List Char
  | [] => l.line level ++ ['}']
  | (k, v) :: rest =>
    ',' :: (l.line (level + 1) ++ (quote k ++ ':' :: (l.gap ++ (chars l (level + 1) v ++ memberChars l level rest))))

end

def compact : Layout := ⟨fun _ => [], [], fun _ => rfl, rfl⟩

theorem new_line_blank (level : Nat) : (newLine level).all isSpace = true := by
  simp [newLine, isSpace]

def indented : Layout := ⟨newLine, [' '], new_line_blank, rfl⟩

mutual

theorem compact_chars (level : Nat) : (v : Json) → compact.chars level v = v.compactChars
  | .arr [] => rfl
  | .arr (v :: vs) => by
    rw [chars, compactChars, compact_chars (level + 1) v, compact_item_chars level vs]
    rfl
  | .obj [] => rfl
  | .obj ((k, v) :: rest) => by
    rw [chars, compactChars, compact_chars (level + 1) v, compact_member_chars level rest]
    rfl
  | .null | .bool _ | .num _ | .str _ => rfl

theorem compact_item_chars (level : Nat) : (vs : List Json) → compact.itemChars level vs = compactItems vs
  | [] => rfl
  | v :: vs => by
    rw [itemChars, compactItems, compact_chars (level + 1) v, compact_item_chars level vs]
    rfl

theorem compact_member_chars (level : Nat) : (ms : List (String × Json)) →
    compact.memberChars level ms = compactMembers ms
  | [] => rfl
  | (k, v) :: rest => by
    rw [memberChars, compactMembers, compact_chars (level + 1) v, compact_member_chars level rest]
    rfl

end

mutual

theorem indented_chars (level : Nat) : (v : Json) → indented.chars level v = v.indentedChars level
  | .arr [] => rfl
  | .arr (v :: vs) => by
    rw [chars, indentedChars, indented_chars (level + 1) v, indented_item_chars level vs, List.append_assoc]
    rfl
  | .obj [] => rfl
  | .obj ((k, v) :: rest) => by
    rw [chars, indentedChars, indented_chars (level + 1) v, indented_member_chars level rest, List.append_assoc]
    rfl
  | .bool b => by cases b <;> rfl
  | .null | .num _ | .str _ => rfl

theorem indented_item_chars (level : Nat) : (vs : List Json) → indented.itemChars level vs = indentedItems level vs
  | [] => rfl
  | v :: vs => by
    rw [itemChars, indentedItems, indented_chars (level + 1) v, indented_item_chars level vs, List.append_assoc]
    rfl

theorem indented_member_chars (level : Nat) : (ms : List (String × Json)) →
    indented.memberChars level ms = indentedMembers level ms
  | [] => rfl
  | (k, v) :: rest => by
    rw [memberChars, indentedMembers, indented_chars (level + 1) v, indented_member_chars level rest, List.append_assoc]
    rfl

end

theorem chars_num (l : Layout) (level : Nat) (literal : String) : l.chars level (.num literal) = literal.toList := rfl

theorem chars_str (l : Layout) (level : Nat) (s : String) : l.chars level (.str s) = quote s := rfl

theorem chars_head (l : Layout) (level : Nat) (h : Read v) : ∃ c cs, l.chars level v = c :: cs ∧ opens c = true := by
  cases h with
  | null => exact ⟨'n', _, rfl, rfl⟩
  | bool b => cases b <;> exact ⟨_, _, rfl, rfl⟩
  | str s => exact ⟨'"', _, rfl, rfl⟩
  | num n =>
    obtain ⟨c, cs, hcs, hc⟩ := numeral_head n
    refine ⟨c, cs, ?_, ?_⟩
    · rw [← hcs]
      exact String.toList_ofList
    · rcases hc with rfl | hc
      · rfl
      · simp [opens, hc]
  | @arr items _ => cases items <;> exact ⟨'[', _, rfl, rfl⟩
  | @obj members _ _ => cases members <;> exact ⟨'\x7b', _, rfl, rfl⟩

end Layout

end TypedRecords.Json
