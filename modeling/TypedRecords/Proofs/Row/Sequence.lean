import Mathlib.Data.List.Forall2
/-!
# Sequences of steps that may fail

What the success or failure of a sequence tells about its items.
-/

namespace TypedRecords

variable {α β γ ε : Type} {f : α → Except ε β} {g : β → Except ε γ} {k : α → γ} {p : β → Prop}
  {x : α} {xs : List α} {ys : List β}

theorem map_ok_inv {e : Except ε α} {h : α → β} {y : β} (hmap : e.map h = .ok y) :
    ∃ x, e = .ok x ∧ y = h x := by
  cases e with
  | error _ => cases hmap
  | ok x =>
    cases hmap
    exact ⟨x, rfl, rfl⟩

theorem bind_ok_inv {e : Except ε α} {y : β} (hbind : e.bind f = .ok y) : ∃ x, e = .ok x ∧ f x = .ok y := by
  cases e with
  | error _ => cases hbind
  | ok x => exact ⟨x, rfl, hbind⟩

theorem map_m_exists (h : ∀ x ∈ xs, ∃ y, f x = .ok y ∧ p y) :
    ∃ ys, xs.mapM f = .ok ys ∧ ∀ y ∈ ys, p y := by
  induction xs with
  | nil => exact ⟨[], rfl, by simp⟩
  | cons x xs ih =>
    rw [List.forall_mem_cons] at h
    obtain ⟨⟨y, hy, hp⟩, hxs⟩ := h
    obtain ⟨ys, hys, hps⟩ := ih hxs
    refine ⟨y :: ys, ?_, List.forall_mem_cons.mpr ⟨hp, hps⟩⟩
    rw [List.mapM_cons, hy, hys]
    rfl

theorem map_m_cons_inv (h : (x :: xs).mapM f = .ok ys) :
    ∃ y ys', f x = .ok y ∧ xs.mapM f = .ok ys' ∧ ys = y :: ys' := by
  rw [List.mapM_cons] at h
  cases hx : f x with
  | error e =>
    rw [hx] at h
    cases h
  | ok y =>
    cases hxs : xs.mapM f with
    | error e =>
      rw [hx, hxs] at h
      cases h
    | ok ys' =>
      rw [hx, hxs] at h
      cases h
      exact ⟨y, ys', rfl, rfl, rfl⟩

/-- A second sequence that takes each result further takes all of them further. -/
theorem map_m_back (h : ∀ x ∈ xs, ∀ y, f x = .ok y → g y = .ok (k x)) (hm : xs.mapM f = .ok ys) :
    ys.mapM g = .ok (xs.map k) := by
  induction xs generalizing ys with
  | nil =>
    cases hm
    rfl
  | cons x xs ih =>
    rw [List.forall_mem_cons] at h
    obtain ⟨y, ys', hy, hys, rfl⟩ := map_m_cons_inv hm
    rw [List.mapM_cons, h.1 y hy, ih h.2 hys]
    rfl

/-- A second sequence that can only end in one result for each item ends in the list of them. -/
theorem map_m_through {zs : List γ} (h : ∀ x ∈ xs, ∀ y z, f x = .ok y → g y = .ok z → z = k x) (hf : xs.mapM f = .ok ys)
    (hg : ys.mapM g = .ok zs) : zs = xs.map k := by
  induction xs generalizing ys zs with
  | nil =>
    cases hf
    cases hg
    rfl
  | cons x xs ih =>
    rw [List.forall_mem_cons] at h
    obtain ⟨y, ys', hy, hys, rfl⟩ := map_m_cons_inv hf
    obtain ⟨z, zs', hz, hzs, rfl⟩ := map_m_cons_inv hg
    rw [List.map_cons, h.1 y z hy hz, ih h.2 hys hzs]

theorem map_m_map (f : α → Except ε β) (a : β → γ) (xs : List α) :
    (xs.mapM fun x => (f x).map a) = (xs.mapM f).map (List.map a) := by
  induction xs with
  | nil => rfl
  | cons x xs ih =>
    rw [List.mapM_cons, List.mapM_cons, ih]
    cases f x with
    | error e => rfl
    | ok y => cases xs.mapM f <;> rfl

theorem map_m_length (hm : xs.mapM f = .ok ys) : ys.length = xs.length := by
  induction xs generalizing ys with
  | nil =>
    cases hm
    rfl
  | cons x xs ih =>
    obtain ⟨y, ys', -, hys, rfl⟩ := map_m_cons_inv hm
    rw [List.length_cons, List.length_cons, ih hys]

theorem map_m_keeps {δ : Type} {a : α → δ} {b : β → δ} (h : ∀ x ∈ xs, ∀ y, f x = .ok y → b y = a x)
    (hm : xs.mapM f = .ok ys) : ys.map b = xs.map a := by
  induction xs generalizing ys with
  | nil =>
    cases hm
    rfl
  | cons x xs ih =>
    rw [List.forall_mem_cons] at h
    obtain ⟨y, ys', hy, hys, rfl⟩ := map_m_cons_inv hm
    rw [List.map_cons, List.map_cons, h.1 y hy, ih h.2 hys]

theorem forall₂_mem {r : α → β → Prop} (h : List.Forall₂ r xs ys) (hx : x ∈ xs) : ∃ y ∈ ys, r x y := by
  induction h with
  | nil => cases hx
  | cons hr _ ih =>
    rcases List.mem_cons.mp hx with rfl | hx
    · exact ⟨_, List.mem_cons_self, hr⟩
    · obtain ⟨y, hy, hr⟩ := ih hx
      exact ⟨y, List.mem_cons_of_mem _ hy, hr⟩

theorem map_m_congr {α' : Type} {f' : α' → Except ε β} {xs' : List α'} {r : α → α' → Prop}
    (hr : List.Forall₂ r xs xs') (h : ∀ x ∈ xs, ∀ x' ∈ xs', r x x' → f x = f' x') : xs.mapM f = xs'.mapM f' := by
  induction hr with
  | nil => rfl
  | @cons x x' xs xs' hxx' _ ih =>
    have hrest := ih fun y hy y' hy' => h y (List.mem_cons_of_mem _ hy) y' (List.mem_cons_of_mem _ hy')
    rw [List.mapM_cons, List.mapM_cons, h x List.mem_cons_self x' List.mem_cons_self hxx', hrest]

theorem map_m_mem (hm : xs.mapM f = .ok ys) : ∀ y ∈ ys, ∃ x ∈ xs, f x = .ok y := by
  induction xs generalizing ys with
  | nil =>
    cases hm
    simp
  | cons x xs ih =>
    obtain ⟨y, ys', hy, hys, rfl⟩ := map_m_cons_inv hm
    intro z hz
    rcases List.mem_cons.mp hz with rfl | hz
    · exact ⟨x, List.mem_cons_self, hy⟩
    · obtain ⟨w, hw, hfw⟩ := ih hys z hz
      exact ⟨w, List.mem_cons_of_mem _ hw, hfw⟩

theorem map_m_getElem (hm : xs.mapM f = .ok ys) {i : Nat} (hx : xs[i]? = some x) :
    ∃ y, ys[i]? = some y ∧ f x = .ok y := by
  induction xs generalizing ys i with
  | nil => simp at hx
  | cons w ws ih =>
    obtain ⟨y, ys', hy, hys, rfl⟩ := map_m_cons_inv hm
    cases i with
    | zero =>
      obtain rfl := Option.some.inj hx
      exact ⟨y, rfl, hy⟩
    | succ i => exact ih hys hx

theorem map_m_result (hm : xs.mapM f = .ok ys) (hx : x ∈ xs) : ∃ y ∈ ys, f x = .ok y := by
  obtain ⟨i, hi⟩ := List.mem_iff_getElem?.mp hx
  obtain ⟨y, hy, hfx⟩ := map_m_getElem hm hi
  exact ⟨y, List.mem_of_getElem? hy, hfx⟩

theorem map_m_ok_iff : (∃ ys, xs.mapM f = .ok ys) ↔ ∀ x ∈ xs, ∃ y, f x = .ok y := by
  constructor
  · rintro ⟨ys, hys⟩
    induction xs generalizing ys with
    | nil => simp
    | cons x xs ih =>
      obtain ⟨y, ys', hy, hys, -⟩ := map_m_cons_inv hys
      exact List.forall_mem_cons.mpr ⟨⟨y, hy⟩, ih ys' hys⟩
  · intro h
    obtain ⟨ys, hys, -⟩ := map_m_exists (p := fun _ => True) fun x hx => (h x hx).imp fun _ hy => ⟨hy, trivial⟩
    exact ⟨ys, hys⟩

theorem map_ok_iff {e : Except ε α} {h : α → β} : (∃ y, e.map h = .ok y) ↔ ∃ x, e = .ok x := by
  constructor
  · rintro ⟨y, hy⟩
    obtain ⟨x, hx, -⟩ := map_ok_inv hy
    exact ⟨x, hx⟩
  · rintro ⟨x, rfl⟩
    exact ⟨h x, rfl⟩

theorem mem_filter_map_ok {y : β} : y ∈ xs.filterMap (fun x => (f x).toOption) ↔ ∃ x ∈ xs, f x = .ok y := by
  rw [List.mem_filterMap]
  constructor
  · rintro ⟨x, hx, hy⟩
    cases hf : f x with
    | error e =>
      rw [hf] at hy
      cases hy
    | ok y' =>
      rw [hf] at hy
      rw [← Option.some.inj hy]
      exact ⟨x, hx, hf⟩
  · rintro ⟨x, hx, hy⟩
    refine ⟨x, hx, ?_⟩
    rw [hy]
    rfl

theorem map_m_error (hx : x ∈ xs) (he : ∃ e, f x = .error e) : ∃ e, xs.mapM f = .error e := by
  cases hm : xs.mapM f with
  | error e => exact ⟨e, rfl⟩
  | ok ys =>
    obtain ⟨y, hy⟩ := map_m_ok_iff.mp ⟨ys, hm⟩ x hx
    obtain ⟨e, he⟩ := he
    rw [hy] at he
    cases he

end TypedRecords
