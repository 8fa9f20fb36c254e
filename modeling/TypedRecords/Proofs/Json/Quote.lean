import TypedRecords.Json.Writer
import TypedRecords.Json.Reader
/-!
# Quoted strings

A string that is written with its escapes is read back as it was.
-/

namespace TypedRecords.Json

open Text (hexValue? hexDigit hexByte)

variable {rest tail : List Char}

theorem hex_value_digit (n : Nat) : hexValue? (hexDigit n) = some (n % 16) := by
  have htable : ∀ m < 16, hexValue? (Nat.digitChar m) = some m := by decide
  exact htable (n % 16) (Nat.mod_lt _ (by decide))

theorem string_body_unit {n : Nat} (hn : n < 0x20) :
    stringBody (.unit none 4 0) ('0' :: '0' :: (hexByte n ++ tail)) =
      (stringBody .nothing tail).map fun (cs, r) => (Char.ofNat n :: cs, r) := by
  have hzero : hexValue? '0' = some 0 := by decide
  have hhigh := hex_value_digit (n / 16)
  have hlow := hex_value_digit n
  have hvalue : 16 * (16 * (16 * (16 * 0 + 0) + 0) + n / 16 % 16) + n % 16 = n := by omega
  have hclose : closeUnit none n = some (some (Char.ofNat n), .nothing) := by
    rw [closeUnit, if_neg (by omega), if_neg (by omega)]
  simp only [hexByte, List.cons_append, List.nil_append, stringBody, hzero, hhigh, hlow, Nat.reduceLeDiff,
    Nat.reduceSub, if_true, if_false, hvalue, hclose]

theorem string_body_escape (c : Char) : stringBody .nothing (escapeChar c ++ tail) =
    (stringBody .nothing tail).map fun (cs, r) => (c :: cs, r) := by
  unfold escapeChar
  split
  · next h =>
    subst h
    rfl
  split
  · next h =>
    subst h
    rfl
  split
  · next hlow =>
    split
    · rfl
    · rfl
    · rfl
    · split
      · next h =>
        have hc : c = Char.ofNat 0x08 := by rw [← h, Char.ofNat_toNat]
        rw [hc]
        rfl
      split
      · next h =>
        have hc : c = Char.ofNat 0x0C := by rw [← h, Char.ofNat_toNat]
        rw [hc]
        rfl
      · have hunit : stringBody (.unit none 4 0) ('0' :: '0' :: (hexByte c.toNat ++ tail)) = _ :=
          string_body_unit hlow
        rw [Char.ofNat_toNat] at hunit
        rw [← hunit]
        rfl
  · next hquote hslash hlow =>
    rw [List.cons_append, List.nil_append, stringBody, if_neg hquote, if_neg hslash, if_neg hlow]

theorem string_body_quote (cs : List Char) :
    stringBody .nothing (escape cs ++ '"' :: rest) = some (cs, rest) := by
  induction cs with
  | nil => rfl
  | cons c cs ih =>
    have hsplit : escape (c :: cs) ++ '"' :: rest = escapeChar c ++ (escape cs ++ '"' :: rest) := by
      rw [escape, List.flatMap_cons, List.append_assoc]
      rfl
    rw [hsplit, string_body_escape, ih]
    rfl

theorem string_text_quote (s : String) :
    stringText .all (escape s.toList ++ '"' :: rest) = some (s, rest) := by
  have hbody : stringBody .nothing (escape s.toList ++ '"' :: rest) = some (s.toList, rest) :=
    string_body_quote s.toList
  simp only [stringText, hbody, Option.map_some, String.ofList_toList]

theorem quote_eq (s : String) (rest : List Char) :
    quote s ++ rest = '"' :: (escape s.toList ++ '"' :: rest) := by
  simp [quote]

theorem escape_char_length (c : Char) : 1 ≤ (escapeChar c).length := by
  unfold escapeChar
  repeat' split
  all_goals simp

theorem escape_length (cs : List Char) : cs.length ≤ (escape cs).length := by
  induction cs with
  | nil => exact Nat.le_refl _
  | cons c cs ih =>
    have hc := escape_char_length c
    rw [escape] at ih ⊢
    rw [List.flatMap_cons, List.length_append, List.length_cons]
    omega

end TypedRecords.Json
