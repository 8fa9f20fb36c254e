import TypedRecords.Inference
import TypedRecords.Proofs.DataType.Lattice
import TypedRecords.Proofs.DataType.Seen
import TypedRecords.Proofs.Text.Digits
/-!
# Inferred types

The type of every token and of every record is one that inference can see, so it is plain.
-/

namespace TypedRecords.Inference

open DataType

variable {o : Options}

theorem type_of_string_seen (s : String) : Seen (typeOfString o s) := by
  unfold typeOfString
  repeat' split
  all_goals trivial

theorem decimal_type_seen {l : Literal} {precision scale : Nat}
    (h : l.decimalType? = some (precision, scale)) : Seen (.decimal precision scale) := by
  unfold Literal.decimalType? at h
  split at h
  · dsimp only at h
    split at h
    · obtain ⟨rfl, rfl⟩ := Prod.mk.inj (Option.some.inj h)
      have hdigits := List.length_pos_iff.mpr (Text.digits_of_ne_nil l.unscaled.natAbs)
      exact seen_decimal.mpr ⟨hdigits.trans_le (le_max_left _ _), by assumption, le_max_right _ _⟩
    · contradiction
  · contradiction

theorem type_of_number_seen (literal : String) : Seen (typeOfNumber o literal) := by
  unfold typeOfNumber
  split
  · trivial
  · split
    · dsimp only
      split
      · exact seen_decimal.mpr ⟨Nat.one_pos.trans_le (le_max_right _ _), by assumption, Nat.zero_le _⟩
      · trivial
    · split
      · split
        · next h =>
          obtain ⟨l, -, h⟩ := Option.bind_eq_some_iff.mp h
          exact decimal_type_seen h
        · trivial
      · trivial

theorem enter_field_seen {combine : DataType → DataType → DataType} {name : String} {t : DataType}
    {fs : List Field} (hc : ∀ u, Seen u → Seen (combine u t)) (ht : Seen t)
    (h : Seen (.struct fs)) : Seen (.struct (enterField combine name t fs)) := by
  have hfs := (seen_struct.mp h).1
  have hin : Regular (enterField combine name t fs) := enter_field_regular hfs
  refine seen_struct.mpr ⟨hin, fun f hf => ?_⟩
  have htype := hin.mem_type hf
  rw [enter_field_type hfs, Option.merge_eq_some_iff] at htype
  rcases htype with ⟨hu, -⟩ | ⟨-, hu⟩ | ⟨u, v, hu, hv, huv⟩
  · exact seen_field h hu
  · split at hu
    · exact Option.some.inj hu ▸ ht
    · contradiction
  · split at hv
    · rw [← huv, ← Option.some.inj hv]
      exact hc u (seen_field h hu)
    · contradiction

mutual

theorem type_of_seen : (v : Json) → Seen (typeOf o v)
  | .null => trivial
  | .bool _ => trivial
  | .str s => type_of_string_seen s
  | .num literal => type_of_number_seen literal
  | .arr items => seen_array.mpr ⟨rfl, type_of_items_seen items trivial⟩
  | .obj members => type_of_members_seen members

theorem type_of_items_seen {seen : DataType} :
    (items : List Json) → Seen seen → Seen (typeOfItems o seen items)
  | [], h => h
  | v :: vs, h => type_of_items_seen vs (merge_seen h (type_of_seen v))

theorem type_of_members_seen :
    (members : List (String × Json)) → Seen (.struct (typeOfMembers o members))
  | [] => seen_struct.mpr ⟨regular_nil, by simp [typeOfMembers]⟩
  | (_, v) :: rest =>
    enter_field_seen (fun _ h => h) (type_of_seen v) (type_of_members_seen rest)

end

theorem corrupt_type_seen : Seen (corruptType o) := by
  unfold corruptType
  split
  · refine seen_struct.mpr ⟨regular_nil.cons (by simp), ?_⟩
    simp [Seen, Every, Observable]
  · trivial

theorem type_of_record_seen (text : String) : Seen (typeOfRecord o text) := by
  unfold typeOfRecord
  split
  · exact type_of_seen _
  · exact corrupt_type_seen

theorem type_of_plain (v : Json) : (typeOf o v).Plain := (type_of_seen v).plain

theorem type_of_items_plain {seen : DataType} (items : List Json) (h : seen.Plain) :
    (typeOfItems o seen items).Plain := by
  induction items generalizing seen with
  | nil => exact h
  | cons v vs ih => exact ih (merge_plain h (type_of_plain v))

theorem type_of_members_plain (members : List (String × Json)) : Plain (.struct (typeOfMembers o members)) :=
  (type_of_members_seen members).plain

theorem corrupt_type_plain : (corruptType o).Plain := corrupt_type_seen.plain

theorem type_of_record_plain (text : String) : (typeOfRecord o text).Plain := (type_of_record_seen text).plain

end TypedRecords.Inference
