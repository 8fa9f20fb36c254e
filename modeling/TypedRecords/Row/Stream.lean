import TypedRecords.Row.Decode
/-!
# Streams of rows

The rows of a sequence of records, one at a time. A record that fails gives one error in place of its
rows, and the stream goes on with the next record. A record that panics ends the run.
-/

namespace TypedRecords

/-- The records still to be read, and the rows already decoded but not yet given out. -/
structure RowStream where
  records : List String
  pending : List Row
  deriving Repr

namespace RowStream

/-- What comes of a call for the next row. A call that panics does not return. -/
inductive Call where
  | ended
  | item (x : Except Error Row) (rest : RowStream)
  | panicked
  deriving Repr

def ofRecords (records : List String) : RowStream := ⟨records, []⟩

def advance (decode : String → Except Error (List Row)) : List String → Call
  | [] => .ended
  | text :: records =>
    match decode text with
    | .error .panic => .panicked
    | .error e => .item (.error e) ⟨records, []⟩
    | .ok [] => advance decode records
    | .ok (row :: rows) => .item (.ok row) ⟨records, rows⟩

def next (decode : String → Except Error (List Row)) (s : RowStream) : Call :=
  match s.pending with
  | row :: rows => .item (.ok row) ⟨s.records, rows⟩
  | [] => advance decode s.records

theorem advance_shortens {decode : String → Except Error (List Row)} {x : Except Error Row} :
    {records : List String} → {s : RowStream} → advance decode records = .item x s →
      s.records.length < records.length
  | [], _, h => by simp [advance] at h
  | text :: records, s, h => by
    rw [advance] at h
    split at h
    · simp at h
    · simp only [Call.item.injEq] at h
      rw [← h.2]
      simp
    · have := advance_shortens h
      simp only [List.length_cons]
      omega
    · simp only [Call.item.injEq] at h
      rw [← h.2]
      simp

/-- All that the stream gives until it ends. A panic stands last. -/
def toList (decode : String → Except Error (List Row)) (s : RowStream) : List (Except Error Row) :=
  match _h : s.next decode with
  | .ended => []
  | .item x rest => x :: toList decode rest
  | .panicked => [.error .panic]
termination_by (s.records.length, s.pending.length)
decreasing_by
  rw [next] at _h
  split at _h
  · next hp =>
    simp only [Call.item.injEq] at _h
    rw [← _h.2, hp]
    exact Prod.Lex.right _ (by simp)
  · exact Prod.Lex.left _ _ (advance_shortens _h)

end RowStream

def decodeRecords (s : Schema) (o : Options) (records : List String) : List (Except Error Row) :=
  (RowStream.ofRecords records).toList (Decode.record s o)

end TypedRecords
