import TypedRecords.Proofs.DataType.Canonical
import TypedRecords.Proofs.Inference.Root
import TypedRecords.Proofs.Schema.Distinct
/-!
# Inference and the set of records

Above the sampling limit every record is looked at, and the schema depends on the set of records only: not on
their order, on repetitions or on the way in which their types are merged two by two.
-/

namespace TypedRecords

namespace Sampler

theorem sample_all {α : Type} (xs : List α) : (⟨none⟩ : Sampler).sample xs = xs := by
  simp [sample, keeps, List.zipIdx_map_fst]

end Sampler

namespace Inference

open DataType

variable {o : Options}

theorem not_at_most_of_less {f : Format} {x y : Floating f} (h : x.less y = true) :
    y.atMost x = false := by
  simp only [Floating.less, Floating.atMost, Bool.and_eq_true, decide_eq_true_eq] at h ⊢
  simp [h.1, h.2]

theorem less_of_validate (h : o.validate = .ok ()) : Floating.zero.less o.samplingRatio = true := by
  unfold Options.validate at h
  split at h
  · contradiction
  · simp_all

theorem default_unsampled : Options.samplingLimit.less ({} : Options).samplingRatio = true :=
  show Options.samplingLimit.less (Floating.ofInt 1) = true by decide +kernel

theorem default_valid : ({} : Options).validate = .ok () := by
  have hpos : Floating.zero.less (Floating.ofInt 1 : Double) = true := by decide +kernel
  have hone : (Floating.ofInt 1 : Double).less (Floating.ofInt 1) = false := by decide +kernel
  simp [Options.validate, hpos, hone]

theorem infer_schema_all (hv : o.validate = .ok ())
    (hs : Options.samplingLimit.less o.samplingRatio = true) (records : List String) :
    inferSchema o records = schemaOfRoot o (mergeAllRoots o (records.map (typeOfRecord o))) := by
  have hratio : Sampler.ofRatio o.samplingRatio o.samplingSeed = .ok ⟨none⟩ := by
    simp [Sampler.ofRatio, less_of_validate hv, not_at_most_of_less hs]
  simp [inferSchema, hv, hratio, bind, Except.bind, Sampler.sample_all]

theorem validate_of_infer {records : List String} {s : Schema} (h : inferSchema o records = .ok s) :
    o.validate = .ok () := by
  cases hv : o.validate with
  | ok => rfl
  | error e => simp [inferSchema, hv, bind, Except.bind] at h

theorem schema_of_root_eq (root : DataType) :
    schemaOfRoot o root = Schema.ofFields (canonicalFields (structFields root)) o.caseSensitive := by
  rw [schemaOfRoot]
  cases root with
  | struct fs =>
    rw [canonical?, structFields]
    cases canonicalFields fs with
    | nil => rfl
    | cons g gs => rfl
  | array e n =>
    rw [canonical?]
    cases e.canonical? <;> rfl
  | map w n =>
    rw [canonical?]
    cases w.canonical? <;> rfl
  | _ => rfl

theorem schema_of_root_error {root : DataType} {e : Error} (h : schemaOfRoot o root = .error e) :
    ∃ name, e = .duplicateField name := by
  rw [schema_of_root_eq, Schema.ofFields] at h
  split at h
  · next name _ => exact ⟨name, (Except.error.inj h).symm⟩
  · cases h

theorem reduction_root {r : Reduction} {records : List String}
    (h : ∀ text, text ∈ r.records ↔ text ∈ records) :
    r.root o = mergeAllRoots o (records.map (typeOfRecord o)) := by
  have hset : r.records.toFinset = records.toFinset := Finset.ext fun text => by simp [h text]
  rw [r.root_sup, merge_all_roots_sup, hset]

theorem merge_all_roots_congr {A B : List String} (h : ∀ text, text ∈ A ↔ text ∈ B) :
    mergeAllRoots o (A.map (typeOfRecord o)) = mergeAllRoots o (B.map (typeOfRecord o)) := by
  have hset : A.toFinset = B.toFinset := Finset.ext fun text => by simp [h text]
  rw [merge_all_roots_sup, merge_all_roots_sup, hset]

/-- Collections with the same records give the same schema or the same repeated name, and every reduction of
their records gives the root type that merging one after the other gives. -/
theorem infer_schema_record_set (hv : o.validate = .ok ())
    (hs : Options.samplingLimit.less o.samplingRatio = true) {A B : List String}
    (h : ∀ text, text ∈ A ↔ text ∈ B) :
    inferSchema o A = inferSchema o B ∧
      (∀ e, inferSchema o A = .error e → ∃ name, e = .duplicateField name) ∧
      ∀ r : Reduction, (∀ text, text ∈ r.records ↔ text ∈ A) →
        r.root o = mergeAllRoots o (A.map (typeOfRecord o)) := by
  refine ⟨?_, fun e he => ?_, fun r hr => reduction_root hr⟩
  · rw [infer_schema_all hv hs, infer_schema_all hv hs, merge_all_roots_congr h]
  · rw [infer_schema_all hv hs] at he
    exact schema_of_root_error he

theorem infer_schema_record_set_default :
    let A := ["[[1], null]", "\x7b\"a\":1\x7d", "oops"]
    let B := ["oops", "\x7b\"a\":1\x7d", "[[1], null]", "oops"]
    let r := Reduction.join (.join (.record "oops") .empty)
      (.join (.record "[[1], null]") (.record "\x7b\"a\":1\x7d"))
    ({} : Options).validate = .ok () ∧ Options.samplingLimit.less ({} : Options).samplingRatio = true ∧
      (∀ text, text ∈ A ↔ text ∈ B) ∧ (∀ text, text ∈ r.records ↔ text ∈ A) ∧
      inferSchema {} A = inferSchema {} B ∧ r.root {} = mergeAllRoots {} (A.map (typeOfRecord {})) := by
  intro A B r
  have hAB : ∀ text, text ∈ A ↔ text ∈ B := fun text => by
    simp only [A, B, List.mem_cons, List.not_mem_nil]
    tauto
  have hr : ∀ text, text ∈ r.records ↔ text ∈ A := fun text => by
    simp only [r, A, Reduction.records, List.mem_append, List.mem_cons, List.not_mem_nil]
    tauto
  have h := infer_schema_record_set default_valid default_unsampled hAB
  exact ⟨default_valid, default_unsampled, hAB, hr, h.1, h.2.2 r hr⟩

end Inference

end TypedRecords
