import TypedRecords.Proofs.Decimal.Distance
import TypedRecords.Proofs.Row.Unaliased
import TypedRecords.Proofs.Schema.Distinct
/-!
# Failures stay within their records

Whatever is wrong with a record or a row, the error says so at record level. The only other end that decoding can come to
is a panic, at a decimal with places. No error of encoding ends the work on the other records.
-/

namespace TypedRecords

def FailsOnly {α : Type} (kind : Error → Prop) (x : Except Error α) : Prop := ∀ e, x = .error e → kind e

namespace FailsOnly

variable {α β : Type} {kind : Error → Prop} {x : Except Error α} {f : α → Except Error β}

theorem ok (x : α) : FailsOnly kind (.ok x) := nofun

theorem error {e : Error} (h : kind e) : FailsOnly kind (.error e : Except Error α) := by
  intro e' he
  obtain rfl := Except.error.inj he
  exact h

theorem map (h : FailsOnly kind x) (f : α → β) : FailsOnly kind (x.map f) := by
  cases x with
  | ok x => exact ok (f x)
  | error e => exact error (h e rfl)

theorem bind (h : FailsOnly kind x) (hf : ∀ a, FailsOnly kind (f a)) : FailsOnly kind (x.bind f) := by
  cases x with
  | ok x => exact hf x
  | error e => exact error (h e rfl)

theorem map_m (h : ∀ x, FailsOnly kind (f x)) (xs : List α) : FailsOnly kind (xs.mapM f) := by
  induction xs with
  | nil => exact ok []
  | cons x xs ih =>
    rw [List.mapM_cons]
    apply (h x).bind
    intro y
    apply ih.bind
    intro ys
    exact ok (y :: ys)

end FailsOnly

/-- A computation that fails at record level only. -/
abbrev Contained {α : Type} (x : Except Error α) : Prop := FailsOnly (fun e => e.isRecordLevel = true) x

theorem Contained.of_agrees {α : Type} {x y : Except Error α} (h : Agrees Error.BothUnencodable x y) : Contained x := by
  cases h with
  | ok x => exact FailsOnly.ok x
  | error h =>
    cases h
    exact FailsOnly.error rfl

namespace Decode

open DataType

variable {o : Options} {t : DataType} {fs : List Field} {kind : Error → Prop}

theorem mismatch_contained {α : Type} (t : DataType) (v : Json) : Contained (mismatch t v : Except Error α) := .error rfl

theorem whole_contained (t : DataType) (literal : String) : Contained (whole t literal) := by
  unfold whole
  split
  · exact .ok _
  · split
    · exact .error rfl
    · exact .error rfl

theorem whole_within_contained (bits : Nat) (t : DataType) (literal : String) :
    Contained (wholeWithin bits t literal) := by
  apply (whole_contained t literal).bind
  intro z
  split
  · exact .ok z
  · exact .error rfl

theorem seconds_contained (t : DataType) (literal : String) : Contained (secondsAsMicros t literal) := by
  apply (whole_contained t literal).bind
  intro z
  split
  · exact .ok _
  · exact .error rfl

theorem any_real_contained (o : Options) (t : DataType) (v : Json) : Contained (anyReal o t v) := by
  unfold anyReal
  split
  · exact .ok _
  · unfold realWord
    dsimp only
    split_ifs
    all_goals first | exact .ok _ | exact .error rfl
  · exact mismatch_contained t _

theorem date_contained (s : String) : Contained (date s) := by
  unfold date
  split
  · exact .ok _
  · exact .error rfl

theorem timestamp_contained (s : String) : Contained (timestamp s) := by
  unfold timestamp
  split
  · exact .ok _
  · exact .error rfl

/-- A panic needs a place that the literal is too far from, and no literal is too far from the whole numbers. -/
theorem decimal_fails_only (hlevel : ∀ e, e.isRecordLevel = true → kind e) {p s : Nat} (hpanic : 0 < s → kind .panic)
    (literal : String) : FailsOnly kind (Decimal.ofLiteral literal p s) := by
  intro e he
  have hcause : e = .decimalOverflow literal p s ∨ e = .panic := by
    unfold Decimal.ofLiteral at he
    split at he <;> cases he
    · exact Or.inl rfl
    · exact Or.inr rfl
  rcases hcause with rfl | rfl
  · exact hlevel _ rfl
  · obtain ⟨l, hl, hfar⟩ := (Decimal.of_literal_panic_iff p).mp he
    obtain ⟨hlow, -⟩ := Literal.parse_scale hl
    apply hpanic
    omega

theorem scalar_fails_only (hlevel : ∀ e, e.isRecordLevel = true → kind e)
    (hpanic : ∀ p s, t = .decimal p s → 0 < s → kind .panic) (v : Json) : FailsOnly kind (scalar o t v) := by
  have contained {α : Type} {x : Except Error α} (h : Contained x) : FailsOnly kind x := fun e he => hlevel e (h e he)
  unfold scalar
  split
  case h_4 | h_5 | h_6 => exact (contained (whole_within_contained _ _ _)).map _
  case h_7 => exact (contained (whole_contained _ _)).map _
  case h_8 | h_9 => exact (contained (any_real_contained _ _ _)).map _
  case h_10 p s literal => exact (decimal_fails_only hlevel (hpanic p s rfl) literal).map _
  case h_11 =>
    split
    · exact .ok _
    · exact .error (hlevel _ rfl)
  case h_12 => exact (contained (date_contained _)).map _
  case h_13 => exact (contained (whole_within_contained _ _ _)).map _
  case h_14 => exact (contained (timestamp_contained _)).map _
  case h_15 => exact (contained (seconds_contained _ _)).map _
  case h_16 => exact contained (mismatch_contained _ _)
  all_goals exact .ok _

theorem fields_fails_only (ih : ∀ f ∈ fs, ∀ v, FailsOnly kind (value o f.type v)) (members : List (String × Json)) :
    FailsOnly kind (fields o fs members) := by
  induction fs with
  | nil => exact .ok []
  | cons f fs ihf =>
    obtain ⟨name, t, nullable⟩ := f
    rw [List.forall_mem_cons] at ih
    have hrest := ihf ih.2
    rw [fields]
    cases Json.member? members name with
    | none => exact hrest.map _
    | some v =>
      apply (ih.1 v).bind
      intro x
      exact hrest.map _

/-- A token is read as a type or fails at record level, one case for each way to make a type. It panics only where the
type has a decimal with places. -/
theorem value_fails_only (hlevel : ∀ e, e.isRecordLevel = true → kind e)
    (hpanic : ∀ p s, Part (.decimal p s) t → 0 < s → kind .panic) (v : Json) : FailsOnly kind (value o t v) := by
  have mismatched {α : Type} (t : DataType) (v : Json) : FailsOnly kind (mismatch t v : Except Error α) :=
    .error (hlevel _ rfl)
  induction t using DataType.induct generalizing v with
  | scalar t ht =>
    cases hnull : isNullFor o t v with
    | true =>
      unfold value
      rw [if_pos hnull]
      exact .ok _
    | false =>
      rw [value_scalar ht hnull]
      apply scalar_fails_only hlevel
      rintro p s rfl
      exact hpanic p s .here
  | named name t ih =>
    rw [value_alias]
    exact ih (fun p s hpart => hpanic p s (.storage hpart)) v
  | array e n ih =>
    have hitem := ih fun p s hpart => hpanic p s (.element hpart)
    unfold value
    split
    · exact .ok _
    · cases v with
      | arr items => exact (FailsOnly.map_m hitem items).map _
      | obj members => exact (hitem (.obj members)).map _
      | _ => exact mismatched _ _
  | map w n ih =>
    have hvalue := ih fun p s hpart => hpanic p s (.value hpart)
    unfold value
    split
    · exact .ok _
    · cases v with
      | obj members =>
        have hentries := FailsOnly.map_m (fun m : String × Json => (hvalue m.2).map (m.1, ·)) members
        exact hentries.map _
      | _ => exact mismatched _ _
  | struct fs ih =>
    have hfields := fun f hf => ih f hf fun p s hpart => hpanic p s (.field hf hpart)
    unfold value
    split
    · exact .ok _
    · cases v with
      | obj members => exact (fields_fails_only hfields members).map _
      | _ => exact mismatched _ _

def Fault (t : DataType) (e : Error) : Prop :=
  e.isRecordLevel = true ∨ e = .panic ∧ ∃ p s, Part (.decimal p s) t ∧ 0 < s

theorem record_faults (s : Schema) (o : Options) (text : String) : FailsOnly (Fault s.toType) (record s o text) := by
  have hfields (members : List (String × Json)) : FailsOnly (Fault s.toType) (fields o s.fields members) := by
    refine fields_fails_only (fun f hf => value_fails_only (fun e => Or.inl) ?_) members
    exact fun p s hpart hpos => Or.inr ⟨rfl, p, s, .field hf hpart, hpos⟩
  unfold record
  split
  · exact .ok _
  · exact .ok _
  · exact (hfields _).map _
  · split
    · exact FailsOnly.map_m hfields _
    · exact .ok _
  · exact .ok _

end Decode

namespace Encode

theorem row_contained (s : Schema) (row : Row) : Contained (Encode.row s row) := .of_agrees (row_unaliased s row)

end Encode

end TypedRecords
