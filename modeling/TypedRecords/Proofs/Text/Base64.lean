import Mathlib.Data.List.Basic
import TypedRecords.Text.Base64
/-!
# Base64 round trip

What is encoded is decoded, group by group: three bytes and four symbols hold the same 24 bits, and the last
group takes its padding along.
-/

namespace TypedRecords.Text.Base64

variable {v : Nat} {start : Nat} {symbols : List Nat} {bs : List UInt8}

theorem of_nat_eq {n : Nat} {b : UInt8} (h : n % 256 = b.toNat) : UInt8.ofNat n = b := by
  apply UInt8.toNat_inj.mp
  rw [UInt8.toNat_ofNat']
  exact h

theorem symbol_ne_pad : ∀ v < 64, symbolOf v ≠ pad := by decide

theorem symbol_ascii : ∀ v < 64, (symbolOf v).toNat < 128 := by decide

theorem symbol_at_symbol (hv : v < 64) (offset : Nat) : symbolAt (symbolOf v) offset = .ok v := by
  rw [symbolAt, value_of_symbol_of v hv]

theorem scan_last_symbol (hv : v < 64) :
    scanLast start symbols 0 (symbolOf v :: bs) = scanLast start (symbols ++ [v]) 0 bs := by
  rw [scanLast, if_neg (symbol_ne_pad v hv), if_neg (by simp), value_of_symbol_of v hv]

theorem scan_last_pad {padding : Nat} (h : 2 ≤ symbols.length + padding) :
    scanLast start symbols padding (pad :: bs) = scanLast start symbols (padding + 1) bs := by
  rw [scanLast, if_pos rfl, if_neg (by omega)]

/-- A last group of one byte has four bits to spare, one of two bytes has two. -/
theorem decode_last_spare {group : List UInt8} {x y : Nat}
    (hscan : scanLast start [] 0 group = .ok ([x, y], 2)) (hy : y % 16 = 0) :
    decodeLast start group = .ok [UInt8.ofNat (x * 4 + y / 16)] := by
  rw [decodeLast, hscan]
  simp [bind, Except.bind, hy]

theorem decode_last_spare_two {group : List UInt8} {x y z : Nat}
    (hscan : scanLast start [] 0 group = .ok ([x, y, z], 1)) (hz : z % 4 = 0) :
    decodeLast start group = .ok [UInt8.ofNat (x * 4 + y / 16), UInt8.ofNat (y * 16 + z / 4)] := by
  rw [decodeLast, hscan]
  simp [bind, Except.bind, hz]

theorem decode_last_one (a : UInt8) (start : Nat) :
    decodeLast start [symbolOf (a.toNat / 4), symbolOf (a.toNat % 4 * 16), pad, pad] = .ok [a] := by
  have ha := a.toNat_lt
  have hscan : scanLast start [] 0 [symbolOf (a.toNat / 4), symbolOf (a.toNat % 4 * 16), pad, pad] =
      .ok ([a.toNat / 4, a.toNat % 4 * 16], 2) := by
    rw [scan_last_symbol (by omega), scan_last_symbol (by omega), scan_last_pad (by simp),
      scan_last_pad (by simp)]
    rfl
  have hbyte : UInt8.ofNat (a.toNat / 4 * 4 + a.toNat % 4 * 16 / 16) = a := of_nat_eq (by omega)
  rw [decode_last_spare hscan (by omega), hbyte]

theorem decode_last_two (a b : UInt8) (start : Nat) :
    decodeLast start [symbolOf (a.toNat / 4), symbolOf (a.toNat % 4 * 16 + b.toNat / 16),
      symbolOf (b.toNat % 16 * 4), pad] = .ok [a, b] := by
  have ha := a.toNat_lt
  have hb := b.toNat_lt
  have hscan : scanLast start [] 0 [symbolOf (a.toNat / 4), symbolOf (a.toNat % 4 * 16 + b.toNat / 16),
      symbolOf (b.toNat % 16 * 4), pad] =
      .ok ([a.toNat / 4, a.toNat % 4 * 16 + b.toNat / 16, b.toNat % 16 * 4], 1) := by
    rw [scan_last_symbol (by omega), scan_last_symbol (by omega), scan_last_symbol (by omega),
      scan_last_pad (by simp)]
    rfl
  have hfirst : UInt8.ofNat (a.toNat / 4 * 4 + (a.toNat % 4 * 16 + b.toNat / 16) / 16) = a :=
    of_nat_eq (by omega)
  have hsecond : UInt8.ofNat ((a.toNat % 4 * 16 + b.toNat / 16) * 16 + b.toNat % 16 * 4 / 4) = b :=
    of_nat_eq (by omega)
  rw [decode_last_spare_two hscan (by omega), hfirst, hsecond]

theorem group_bytes (a b c : UInt8) :
    UInt8.ofNat (a.toNat / 4 * 4 + (a.toNat % 4 * 16 + b.toNat / 16) / 16) = a ∧
      UInt8.ofNat ((a.toNat % 4 * 16 + b.toNat / 16) * 16 + (b.toNat % 16 * 4 + c.toNat / 64) / 4) = b ∧
      UInt8.ofNat ((b.toNat % 16 * 4 + c.toNat / 64) * 64 + c.toNat % 64) = c := by
  have ha := a.toNat_lt
  have hb := b.toNat_lt
  have hc := c.toNat_lt
  refine ⟨of_nat_eq ?_, of_nat_eq ?_, of_nat_eq ?_⟩
  · omega
  · omega
  · omega

theorem decode_last_three (a b c : UInt8) (start : Nat) :
    decodeLast start [symbolOf (a.toNat / 4), symbolOf (a.toNat % 4 * 16 + b.toNat / 16),
      symbolOf (b.toNat % 16 * 4 + c.toNat / 64), symbolOf (c.toNat % 64)] = .ok [a, b, c] := by
  have ha := a.toNat_lt
  have hb := b.toNat_lt
  have hc := c.toNat_lt
  have hscan : scanLast start [] 0 [symbolOf (a.toNat / 4), symbolOf (a.toNat % 4 * 16 + b.toNat / 16),
      symbolOf (b.toNat % 16 * 4 + c.toNat / 64), symbolOf (c.toNat % 64)] =
      .ok ([a.toNat / 4, a.toNat % 4 * 16 + b.toNat / 16, b.toNat % 16 * 4 + c.toNat / 64,
        c.toNat % 64], 0) := by
    rw [scan_last_symbol (by omega), scan_last_symbol (by omega), scan_last_symbol (by omega),
      scan_last_symbol (by omega)]
    rfl
  obtain ⟨hfirst, hsecond, hthird⟩ := group_bytes a b c
  rw [decodeLast, hscan]
  simp [bind, Except.bind, hfirst, hsecond, hthird]

theorem encode_ne_nil (h : bs ≠ []) : encode bs ≠ [] := by
  fun_cases encode bs with
  | case4 => contradiction
  | _ => simp

theorem decode_from_encode (h : bs ≠ []) (start : Nat) : decodeFrom start (encode bs) = .ok bs := by
  fun_induction encode bs generalizing start with
  | case1 a b c rest ih =>
    have ha := a.toNat_lt
    have hb := b.toNat_lt
    have hc := c.toNat_lt
    by_cases hrest : rest = []
    · subst hrest
      exact decode_last_three a b c start
    · obtain ⟨e, tail, htail⟩ := List.exists_cons_of_ne_nil (encode_ne_nil hrest)
      have hgroup := ih hrest (start + 4)
      obtain ⟨hfirst, hsecond, hthird⟩ := group_bytes a b c
      rw [htail] at hgroup ⊢
      rw [decodeFrom, symbol_at_symbol (by omega), symbol_at_symbol (by omega),
        symbol_at_symbol (by omega), symbol_at_symbol (by omega), hgroup]
      simp [bind, Except.bind, pure, Except.pure, hfirst, hsecond, hthird]
  | case2 a b => exact decode_last_two a b start
  | case3 a => exact decode_last_one a start
  | case4 => contradiction

theorem encode_length (bs : List UInt8) : (encode bs).length % 4 = 0 := by
  fun_induction encode bs with
  | case1 a b c rest ih =>
    simp only [List.length_cons]
    omega
  | case2 | case3 | case4 => simp

theorem decode_encode (bs : List UInt8) : decode (encode bs) = .ok bs := by
  by_cases h : bs = []
  · subst h
    rfl
  · obtain ⟨last, hlast⟩ := Option.ne_none_iff_exists'.mp
      (fun hn => encode_ne_nil h (List.getLast?_eq_none_iff.mp hn))
    have hlen : ¬ ((encode bs).length % 4 = 1 ∧ last ≠ pad ∧ valueOf? last = none) := by
      have := encode_length bs
      omega
    rw [decode, hlast]
    dsimp only
    rw [if_neg hlen]
    exact decode_from_encode h 0

theorem decode_last_ne_nil {start : Nat} {group out : List UInt8} (h : decodeLast start group = .ok out) :
    out ≠ [] := by
  rw [decodeLast] at h
  cases hscan : scanLast start [] 0 group with
  | error e =>
    rw [hscan] at h
    cases h
  | ok scanned =>
    rw [hscan] at h
    dsimp only [bind, Except.bind] at h
    repeat' split at h
    all_goals
      cases h
      try exact List.cons_ne_nil _ _

theorem decode_from_ne_nil {start : Nat} {out : List UInt8} (h : decodeFrom start bs = .ok out) : out ≠ [] := by
  unfold decodeFrom at h
  split at h
  · dsimp only [bind, Except.bind] at h
    repeat' split at h
    all_goals
      cases h
      try exact List.cons_ne_nil _ _
  · exact decode_last_ne_nil h

theorem decode_ne_nil {out : List UInt8} (hne : bs ≠ []) (h : decode bs = .ok out) : out ≠ [] := by
  unfold decode at h
  split at h
  · next hlast => exact absurd (List.getLast?_eq_none_iff.mp hlast) hne
  · split at h
    · cases h
    · exact decode_from_ne_nil h

theorem encode_ascii (bs : List UInt8) : ∀ b ∈ encode bs, b.toNat < 128 := by
  fun_induction encode bs with
  | case1 a b c rest ih =>
    have ha := a.toNat_lt
    have hb := b.toNat_lt
    have hc := c.toNat_lt
    intro x hx
    simp only [List.mem_cons] at hx
    rcases hx with rfl | rfl | rfl | rfl | hx
    · exact symbol_ascii _ (by omega)
    · exact symbol_ascii _ (by omega)
    · exact symbol_ascii _ (by omega)
    · exact symbol_ascii _ (by omega)
    · exact ih x hx
  | case2 a b =>
    have ha := a.toNat_lt
    have hb := b.toNat_lt
    intro x hx
    simp only [List.mem_cons, List.not_mem_nil, or_false] at hx
    rcases hx with rfl | rfl | rfl | rfl
    · exact symbol_ascii _ (by omega)
    · exact symbol_ascii _ (by omega)
    · exact symbol_ascii _ (by omega)
    · decide
  | case3 a =>
    have ha := a.toNat_lt
    intro x hx
    simp only [List.mem_cons, List.not_mem_nil, or_false] at hx
    rcases hx with rfl | rfl | rfl | rfl
    · exact symbol_ascii _ (by omega)
    · exact symbol_ascii _ (by omega)
    · decide
    · decide
  | case4 => simp

theorem utf8_of_ascii (h : ∀ b ∈ bs, b.toNat < 128) :
    (String.ofList (bs.map fun b => Char.ofNat b.toNat)).toUTF8.data.toList = bs := by
  have hchar : ∀ b ∈ bs, String.utf8EncodeChar (Char.ofNat b.toNat) = [b] := by
    intro b hb
    have hlt := h b hb
    have hval : (Char.ofNat b.toNat).val.toNat = b.toNat := by
      rw [Char.ofNat, dif_pos (Or.inl (by omega))]
      rfl
    have hsize : (Char.ofNat b.toNat).utf8Size = 1 := by
      rw [Char.utf8Size, if_pos]
      exact UInt32.le_iff_toNat_le.mpr (by rw [hval]; exact Nat.le_of_lt_succ hlt)
    rw [String.utf8EncodeChar_eq_singleton hsize]
    congr 1
    apply UInt8.toNat_inj.mp
    rw [UInt32.toNat_toUInt8, hval]
    omega
  have hflat : (bs.map fun b => Char.ofNat b.toNat).flatMap String.utf8EncodeChar = bs := by
    induction bs with
    | nil => rfl
    | cons b bs ih =>
      rw [List.forall_mem_cons] at h hchar
      rw [List.map_cons, List.flatMap_cons, hchar.1, ih h.2 hchar.2]
      rfl
  rw [String.toUTF8_eq_toByteArray, String.toByteArray_ofList, List.utf8Encode, List.toList_data_toByteArray,
    hflat]

end TypedRecords.Text.Base64
