import TypedRecords.Columnar.Batch
import TypedRecords.Proofs.Json.ReadBack
import TypedRecords.Proofs.Row.Line
/-!
# Reading lines one after the other

The lines of some values are read as these values, one for each line, and nothing is left of their text. So a reader that
counts the lines takes the whole text.
-/

namespace TypedRecords

namespace Json

mutual

/-- Each level of nesting has a bracket of its own. -/
theorem depth_le_length : (v : Json) → v.depth ≤ v.compactChars.length
  | .null | .bool _ | .num _ | .str _ => Nat.zero_le _
  | .arr [] => by decide
  | .obj [] => by decide
  | .arr (v :: vs) => by
    have := depth_le_length v
    have := items_depth_le_length vs
    simp only [depth, itemsDepth, compactChars, List.length_cons, List.length_append]
    omega
  | .obj ((k, v) :: members) => by
    have := depth_le_length v
    have := members_depth_le_length members
    simp only [depth, membersDepth, compactChars, List.length_cons, List.length_append]
    omega

theorem items_depth_le_length : (vs : List Json) → itemsDepth vs ≤ (compactItems vs).length
  | [] => Nat.zero_le _
  | v :: vs => by
    have := depth_le_length v
    have := items_depth_le_length vs
    simp only [itemsDepth, compactItems, List.length_cons, List.length_append]
    omega

theorem members_depth_le_length : (members : List (String × Json)) →
    membersDepth members ≤ (compactMembers members).length
  | [] => Nat.zero_le _
  | (k, v) :: members => by
    have := depth_le_length v
    have := members_depth_le_length members
    simp only [membersDepth, compactMembers, List.length_cons, List.length_append]
    omega

end

variable {v : Json} {rest : List Char}

/-- In front of anything that does not carry on a number the text of a value is read as the value. -/
theorem read_value_compact (h : Read v) (hrest : rest.head?.any goesOn = false) :
    let cs := v.compactChars ++ rest
    readValue .all (2 * cs.length + 2) cs.length cs = some (v, rest) := by
  intro cs
  have hlength : cs.length = v.compactChars.length + rest.length := List.length_append
  have hread := reads_back .compact h .all 0 (2 * cs.length + 2) cs.length rest (.all v)
    (by rw [Layout.compact_chars]; omega) hrest
  have hdepth := v.depth_le_length
  rw [Layout.compact_chars, if_pos (by omega)] at hread
  exact hread

theorem skip_space_compact (h : Read v) (rest : List Char) :
    ∃ c cs, v.compactChars ++ rest = c :: cs ∧ skipSpace (c :: cs) = c :: cs := by
  obtain ⟨c, cs, hcs, hc⟩ := Layout.chars_head .compact 0 h
  rw [Layout.compact_chars] at hcs
  exact ⟨c, cs ++ rest, by rw [hcs]; rfl, skip_space_cons (opens_not_space hc).1⟩

end Json

namespace Batch

open Json (Read)

variable {tokens : List Json} {token : Json} {columns : List Column} {count : Nat} {cs : List Char}

theorem read_values_blank {c : Char} (hc : Json.isSpace c = true) (count : Nat) (cs : List Char) :
    readValues count (c :: cs) = readValues count cs := by
  have hskip : Json.skipSpace (c :: cs) = Json.skipSpace cs := by
    simp only [Json.skipSpace, List.dropWhile_cons, hc, if_true]
  cases count with
  | zero => rw [readValues, readValues, hskip]
  | succ count => rw [readValues, readValues, hskip]

theorem read_values_token (h : Read token) (count : Nat) (cs : List Char) :
    readValues (count + 1) (token.compactChars ++ '\n' :: cs) =
      (readValues count cs).map fun (vs, rest) => (token :: vs, rest) := by
  have hread : Json.readValue _ _ _ (token.compactChars ++ '\n' :: cs) = _ := Json.read_value_compact h rfl
  obtain ⟨c, ds, hcs, hskip⟩ := Json.skip_space_compact h ('\n' :: cs)
  rw [hcs] at hread ⊢
  rw [readValues, hskip]
  simp only [hread]
  rw [read_values_blank rfl]

theorem read_values_lines (h : ∀ token ∈ tokens, Read token) :
    readValues tokens.length (String.join ((tokens.map Json.compact).map (· ++ "\n"))).toList = .ok (tokens, []) := by
  rw [String.toList_join]
  induction tokens with
  | nil => rfl
  | cons token tokens ih =>
    rw [List.forall_mem_cons] at h
    have hline : (token.compact ++ "\n").toList = token.compactChars ++ ['\n'] := by
      rw [Json.compact, String.toList_append, String.toList_ofList]
      rfl
    rw [List.map_cons, List.map_cons, List.flatMap_cons, hline, List.append_assoc, List.singleton_append,
      List.length_cons, read_values_token h.1, ih h.2]
    rfl

theorem of_text_lines (h : ∀ token ∈ tokens, Read token) (hne : tokens ≠ []) :
    ofText columns tokens.length (String.join ((tokens.map Json.compact).map (· ++ "\n"))) =
      if storableAll columns then (tokens.mapM (rowCells columns)).map
        fun cells => ⟨tokens.length, columns, transpose columns.length cells⟩
      else .error .columns := by
  have hread := read_values_lines h
  generalize String.join ((tokens.map Json.compact).map (· ++ "\n")) = text at hread
  have hempty : tokens.isEmpty = false := List.isEmpty_eq_false_iff.mpr hne
  have hwhole : text.utf8ByteSize - (String.ofList []).utf8ByteSize = text.utf8ByteSize := Nat.sub_zero _
  rw [ofText, hread]
  cases storableAll columns with
  | false => rfl
  | true =>
    change (if _ ≠ _ then _ else _) = _
    rw [if_neg (not_not.mpr hwhole), flush, hempty]
    cases tokens.mapM (rowCells columns) <;> rfl

end Batch

end TypedRecords
