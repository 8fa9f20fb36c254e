import Mathlib.Data.List.TakeWhile
import TypedRecords.Text.Lines
/-!
# Lines that were written

Texts that are written one to a line are the lines of what was written.
-/

namespace TypedRecords.Text

variable {line cs : List Char} {texts : List String}

/-- Nothing in a line ends it, and its end is not taken for a part of the line feed. -/
structure IsLine (text : String) : Prop where
  no_feed : '\n' ∉ text.toList
  no_return : text.toList.getLast? ≠ some '\r'

theorem lines_from_feed (h : '\n' ∉ cs) (rest : List Char) :
    linesFrom line (cs ++ '\n' :: rest) = dropReturn (line.reverse ++ cs) :: linesFrom [] rest := by
  induction cs generalizing line with
  | nil =>
    rw [List.nil_append, linesFrom, if_pos rfl, List.append_nil]
  | cons c cs ih =>
    rw [List.mem_cons, not_or] at h
    rw [List.cons_append, linesFrom, if_neg (Ne.symm h.1), ih h.2, List.reverse_cons, List.append_assoc,
      List.singleton_append]

theorem drop_return_self (h : cs.getLast? ≠ some '\r') : dropReturn cs = cs := if_neg h

theorem lines_join (h : ∀ text ∈ texts, IsLine text) : lines (String.join (texts.map (· ++ "\n"))) = texts := by
  rw [lines, String.toList_join]
  induction texts with
  | nil => rfl
  | cons text texts ih =>
    rw [List.forall_mem_cons] at h
    have hline : (text ++ "\n").toList = text.toList ++ ['\n'] := String.toList_append
    rw [List.map_cons, List.flatMap_cons, hline, List.append_assoc, List.singleton_append,
      lines_from_feed h.1.no_feed, List.reverse_nil, List.nil_append, drop_return_self h.1.no_return, List.map_cons,
      String.ofList_toList, ih h.2]

theorem trim_ne_nil {c : Char} (h : isBlank c = false) : trim (c :: cs) ≠ [] := by
  have hstart : trimStart (c :: cs) = c :: cs := List.dropWhile_cons_of_neg (by rw [h]; decide)
  intro htrim
  rw [trim, hstart, List.reverse_eq_nil_iff, trimStart, List.dropWhile_eq_nil_iff] at htrim
  have hblank := htrim c (by simp)
  rw [h] at hblank
  contradiction

end TypedRecords.Text
