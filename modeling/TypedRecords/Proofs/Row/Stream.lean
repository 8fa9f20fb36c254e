import Mathlib.Data.List.TakeWhile
import TypedRecords.Row.Stream
/-!
# What a stream of rows gives

A stream gives what its records give one after the other: the rows of a record in their order, or one error in their
place. The items of the records that were read are given before any later record counts, so the same holds of a
sequence of records that goes on. A record that panics is the last one to be read: no call returns from it.
-/

namespace TypedRecords

namespace RowStream

def itemsOf (decode : String → Except Error (List Row)) (text : String) : List (Except Error Row) :=
  match decode text with
  | .ok rows => rows.map .ok
  | .error e => [.error e]

def panics (decode : String → Except Error (List Row)) (text : String) : Bool :=
  match decode text with
  | .error .panic => true
  | _ => false

/-- The records before the first that panics. -/
def reached (decode : String → Except Error (List Row)) (records : List String) : List String :=
  records.takeWhile fun text => !panics decode text

/-- Calls one after the other give the items of a list and leave a state. -/
inductive Yields (decode : String → Except Error (List Row)) :
    RowStream → List (Except Error Row) → RowStream → Prop where
  | nil (s) : Yields decode s [] s
  | cons {s t u x xs} : s.next decode = .item x t → Yields decode t xs u → Yields decode s (x :: xs) u

variable {decode : String → Except Error (List Row)} {s t u : RowStream} {x : Except Error Row}
  {xs ys : List (Except Error Row)} {records more : List String} {text : String} {row : Row} {rows : List Row}

theorem panics_iff : panics decode text = true ↔ decode text = .error .panic := by
  unfold panics
  split
  · next h => exact iff_of_true rfl h
  · next h => exact iff_of_false Bool.false_ne_true h

theorem Yields.trans (h : Yields decode s xs t) (h' : Yields decode t ys u) : Yields decode s (xs ++ ys) u := by
  induction h with
  | nil => exact h'
  | cons hnext _ ih => exact .cons hnext (ih h')

theorem Yields.of_next_eq (h : Yields decode t xs u) (hnext : s.next decode = t.next decode) :
    ∃ u', Yields decode s xs u' ∧ u'.next decode = u.next decode := by
  cases h with
  | nil => exact ⟨s, .nil s, hnext⟩
  | cons hstep hrest => exact ⟨u, .cons (hnext.trans hstep) hrest, rfl⟩

theorem Yields.of_panicked (h : Yields decode s xs t) (hpanic : s.next decode = .panicked) : t = s := by
  cases h with
  | nil => rfl
  | cons hstep _ =>
    rw [hpanic] at hstep
    cases hstep

theorem next_pending (records : List String) (row : Row) (rows : List Row) :
    (⟨records, row :: rows⟩ : RowStream).next decode = .item (.ok row) ⟨records, rows⟩ := rfl

theorem next_empty (h : decode text = .ok []) :
    (ofRecords (text :: records)).next decode = (ofRecords records).next decode := by
  simp only [ofRecords, next, advance, h]

theorem next_rows (h : decode text = .ok (row :: rows)) :
    (ofRecords (text :: records)).next decode = .item (.ok row) ⟨records, rows⟩ := by
  simp only [ofRecords, next, advance, h]

theorem next_error {e : Error} (h : decode text = .error e) (he : e ≠ .panic) :
    (ofRecords (text :: records)).next decode = .item (.error e) (ofRecords records) := by
  cases e <;> first | contradiction | simp only [ofRecords, next, advance, h]

theorem next_panic (h : decode text = .error .panic) : (ofRecords (text :: records)).next decode = .panicked := by
  simp only [ofRecords, next, advance, h]

theorem yields_pending (records : List String) (rows : List Row) :
    Yields decode ⟨records, rows⟩ (rows.map .ok) (ofRecords records) := by
  induction rows with
  | nil => exact .nil _
  | cons row rows ih => exact .cons (next_pending records row rows) ih

variable (decode) in
/-- The records in front give their items, and the stream goes on as it would without them, unless one of them panics. -/
theorem yields_front (more : List String) (h : ∀ text ∈ records, decode text ≠ .error .panic) :
    ∃ t, Yields decode (ofRecords (records ++ more)) (records.flatMap (itemsOf decode)) t ∧
      t.next decode = (ofRecords more).next decode := by
  induction records with
  | nil => exact ⟨ofRecords more, .nil _, rfl⟩
  | cons text records ih =>
    rw [List.forall_mem_cons] at h
    obtain ⟨t, ht, hnext⟩ := ih h.2
    rw [List.flatMap_cons, List.cons_append]
    cases hdecode : decode text with
    | error e =>
      have hpanic : e ≠ .panic := by
        rintro rfl
        exact h.1 hdecode
      rw [itemsOf, hdecode]
      exact ⟨t, .cons (next_error hdecode hpanic) ht, hnext⟩
    | ok rows =>
      rw [itemsOf, hdecode]
      cases rows with
      | nil =>
        obtain ⟨t', ht', hnext'⟩ := ht.of_next_eq (next_empty hdecode)
        exact ⟨t', ht', hnext'.trans hnext⟩
      | cons row rows => exact ⟨t, .cons (next_rows hdecode) ((yields_pending _ rows).trans ht), hnext⟩

theorem reached_calm : ∀ text ∈ reached decode records, decode text ≠ .error .panic := by
  intro text htext hpanic
  have hcalm := List.all_eq_true.mp List.all_takeWhile text htext
  rw [panics_iff.mpr hpanic] at hcalm
  cases hcalm

theorem reached_of_calm (h : ∀ text ∈ records, decode text ≠ .error .panic) : reached decode records = records := by
  apply List.takeWhile_eq_self_iff.mpr
  intro text htext
  rw [Bool.not_eq_true', Bool.eq_false_iff, Ne, panics_iff]
  exact h text htext

theorem mem_of_reached (h : text ∈ reached decode records) : text ∈ records := List.takeWhile_subset _ h

theorem any_panics_iff : records.any (panics decode) = true ↔ ∃ text ∈ records, decode text = .error .panic := by
  simp only [List.any_eq_true, panics_iff]

theorem reached_append (decode : String → Except Error (List Row)) (records : List String) :
    ∃ rest, records = reached decode records ++ rest ∧
      (ofRecords rest).next decode = if records.any (panics decode) then .panicked else .ended := by
  induction records with
  | nil => exact ⟨[], rfl, rfl⟩
  | cons text records ih =>
    cases hpanic : panics decode text with
    | true =>
      refine ⟨text :: records, ?_, ?_⟩
      · rw [reached, List.takeWhile_cons, hpanic]
        rfl
      · rw [next_panic (panics_iff.mp hpanic), List.any_cons, hpanic]
        rfl
    | false =>
      obtain ⟨rest, hrecords, hnext⟩ := ih
      refine ⟨rest, ?_, ?_⟩
      · rw [reached, List.takeWhile_cons, hpanic]
        exact congrArg _ hrecords
      · rw [List.any_cons, hpanic]
        exact hnext

theorem to_list_item (h : s.next decode = .item x t) : s.toList decode = x :: t.toList decode := by
  rw [toList]
  split <;> simp_all

theorem to_list_ended (h : s.next decode = .ended) : s.toList decode = [] := by
  rw [toList]
  split <;> simp_all

theorem to_list_panicked (h : s.next decode = .panicked) : s.toList decode = [.error .panic] := by
  rw [toList]
  split <;> simp_all

theorem Yields.to_list (h : Yields decode s xs t) : s.toList decode = xs ++ t.toList decode := by
  induction h with
  | nil => rfl
  | cons hnext _ ih => rw [to_list_item hnext, ih, List.cons_append]

variable (decode) in
/-- The calls on a sequence of records: the items of the records before the first that panics, then the panic or the
end. -/
theorem yields_records (records : List String) :
    ∃ last, Yields decode (ofRecords records) ((reached decode records).flatMap (itemsOf decode)) last ∧
      last.next decode = if records.any (panics decode) then .panicked else .ended := by
  obtain ⟨rest, hrecords, hrest⟩ := reached_append decode records
  obtain ⟨last, hlast, hnext⟩ := yields_front decode rest reached_calm
  rw [← hrecords] at hlast
  exact ⟨last, hlast, hnext.trans hrest⟩

end RowStream

open RowStream

theorem decode_records_reached (s : Schema) (o : Options) (records : List String) :
    decodeRecords s o records = (reached (Decode.record s o) records).flatMap (itemsOf (Decode.record s o)) ++
      if records.any (panics (Decode.record s o)) then [.error .panic] else [] := by
  obtain ⟨last, hlast, hnext⟩ := yields_records (Decode.record s o) records
  rw [decodeRecords, hlast.to_list]
  congr 1
  split at hnext
  · next hpanics => rw [to_list_panicked hnext, if_pos hpanics]
  · next hcalm => rw [to_list_ended hnext, if_neg hcalm]

/-- Reading a sequence of records row by row gives what the records give one by one, each its rows in order or a single
error, up to the first record that panics, and does not return from that one. Without such a record the stream ends after
the last record. Whatever follows the records then changes nothing about this, and is read as if it stood alone. -/
theorem decode_records_items (s : Schema) (o : Options) (records : List String) :
    decodeRecords s o records = (reached (Decode.record s o) records).flatMap (itemsOf (Decode.record s o)) ++
        (if records.any (panics (Decode.record s o)) then [.error .panic] else []) ∧
      (∃ last, Yields (Decode.record s o) (ofRecords records)
          ((reached (Decode.record s o) records).flatMap (itemsOf (Decode.record s o))) last ∧
        last.next (Decode.record s o) = if records.any (panics (Decode.record s o)) then .panicked else .ended) ∧
      ((∀ text ∈ records, Decode.record s o text ≠ .error .panic) →
        decodeRecords s o records = records.flatMap (itemsOf (Decode.record s o)) ∧
        (∃ last, Yields (Decode.record s o) (ofRecords records) (decodeRecords s o records) last ∧
          last.next (Decode.record s o) = .ended) ∧
        ∀ more, ∃ rest, Yields (Decode.record s o) (ofRecords (records ++ more)) (decodeRecords s o records) rest ∧
          rest.next (Decode.record s o) = (ofRecords more).next (Decode.record s o)) := by
  refine ⟨decode_records_reached s o records, yields_records _ records, ?_⟩
  intro hcalm
  have hnone : ¬ records.any (panics (Decode.record s o)) = true := by
    rw [any_panics_iff]
    rintro ⟨text, htext, hpanic⟩
    exact hcalm text htext hpanic
  have hall : decodeRecords s o records = records.flatMap (itemsOf (Decode.record s o)) := by
    rw [decode_records_reached, reached_of_calm hcalm, if_neg hnone, List.append_nil]
  rw [hall]
  refine ⟨rfl, ?_, fun more => yields_front _ more hcalm⟩
  obtain ⟨last, hlast, hend⟩ := yields_records (Decode.record s o) records
  rw [reached_of_calm hcalm] at hlast
  exact ⟨last, hlast, hend.trans (if_neg hnone)⟩

def tenths : Schema := ⟨[⟨"d", .decimal 38 1, true⟩], rfl⟩

/-- A record that fails between two that are read. -/
theorem decode_records_items_around :
    let records := ["\x7b\"d\":1\x7d", "\x7b\"d\":\"x\"\x7d", "\x7b\"d\":2\x7d"]
    (decodeRecords tenths {} records).map (fun item => item.toOption.isSome) = [true, false, true] := by
  intro records
  have hcalm : ∀ text ∈ records, Decode.record tenths {} text ≠ .error .panic := by
    have hnone : records.all (fun text => !panics (Decode.record tenths {}) text) = true := by decide +kernel
    intro text htext hpanic
    have hthis := List.all_eq_true.mp hnone text htext
    rw [panics_iff.mpr hpanic] at hthis
    cases hthis
  obtain ⟨hitems, -, -⟩ := (decode_records_items tenths {} records).2.2 hcalm
  rw [hitems]
  decide +kernel

/-- The largest exponent is no decimal with a place, and the call that reads it does not return. The record after it is
never read. -/
theorem panic_drops_rows :
    let records := ["\x7b\"d\":1e2147483647\x7d", "\x7b\"d\":1\x7d"]
    (ofRecords records).next (Decode.record tenths {}) = .panicked ∧
      (∃ row, Decode.record tenths {} "\x7b\"d\":1\x7d" = .ok [row]) ∧
      ¬ ∃ last, Yields (Decode.record tenths {}) (ofRecords records)
        (records.flatMap (itemsOf (Decode.record tenths {}))) last ∧ last.next (Decode.record tenths {}) = .ended := by
  intro records
  have hpanics : panics (Decode.record tenths {}) "\x7b\"d\":1e2147483647\x7d" = true := by decide +kernel
  have hone : ((Decode.record tenths {} "\x7b\"d\":1\x7d").map List.length).toOption = some 1 := by decide +kernel
  have hnext : (ofRecords records).next (Decode.record tenths {}) = .panicked := next_panic (panics_iff.mp hpanics)
  refine ⟨hnext, ?_, ?_⟩
  · cases hrecord : Decode.record tenths {} "\x7b\"d\":1\x7d" with
    | error e =>
      rw [hrecord] at hone
      cases hone
    | ok rows =>
      rw [hrecord] at hone
      obtain ⟨row, rfl⟩ := List.length_eq_one_iff.mp (Option.some.inj hone)
      exact ⟨row, rfl⟩
  · rintro ⟨last, hlast, hend⟩
    rw [hlast.of_panicked hnext, hnext] at hend
    cases hend

end TypedRecords
