import TypedRecords.Floating.Shortest
import TypedRecords.Row.Value
/-!
# Values up to their floating point parts

A row that was written and read again differs from the row, if at all, in its floating point values.
-/

namespace TypedRecords

namespace Floating

/-- All values that are no numbers are one. -/
def quiet {f : Format} (x : Floating f) : Floating f := if x.isNaN then nan else x

/-- A finite single as it comes back: its digits are read as a double, and the double is narrowed. -/
def narrowed (x : Single) : Single :=
  (ofDecimal x.isNegative (x.shortest .toEven).significand (x.shortest .toEven).exponent : Double).convert

def reread (x : Single) : Single := if x.isFinite then narrowed x else x.quiet

end Floating

namespace Value

mutual

def mapReals (f : Single → Single) (g : Double → Double) : Value → Value
  | .float x => .float (f x)
  | .double x => .double (g x)
  | .array items => .array (mapRealsAll f g items)
  | .map entries => .map (mapRealsEntries f g entries)
  | .struct row => .struct (mapRealsAll f g row)
  | v => v

def mapRealsAll (f : Single → Single) (g : Double → Double) : List Value → List Value
  | [] => []
  | v :: vs => mapReals f g v :: mapRealsAll f g vs

def mapRealsEntries (f : Single → Single) (g : Double → Double) : List (String × Value) → List (String × Value)
  | [] => []
  | (k, v) :: es => (k, mapReals f g v) :: mapRealsEntries f g es

end

def quiet : Value → Value := mapReals Floating.quiet Floating.quiet

def reread : Value → Value := mapReals Floating.reread Floating.quiet

inductive Holds (x : Single) : Value → Prop where
  | here : Holds x (.float x)
  | item {items v} : v ∈ items → Holds x v → Holds x (.array items)
  | entry {entries e} : e ∈ entries → Holds x e.2 → Holds x (.map entries)
  | field {row v} : v ∈ row → Holds x v → Holds x (.struct row)

@[elab_as_elim] theorem induct {motive : Value → Prop} (array : ∀ items, (∀ v ∈ items, motive v) → motive (.array items))
    (map : ∀ entries, (∀ e ∈ entries, motive e.2) → motive (.map entries))
    (struct : ∀ row, (∀ v ∈ row, motive v) → motive (.struct row))
    (scalar : ∀ v, (∀ items, v ≠ .array items) → (∀ entries, v ≠ .map entries) → (∀ row, v ≠ .struct row) → motive v)
    (v : Value) : motive v := by
  refine @Value.rec motive (fun items => ∀ v ∈ items, motive v) (fun entries => ∀ e ∈ entries, motive e.2)
    (fun e => motive e.2) ?_ ?_ ?_ ?_ ?_ ?_ ?_ ?_ ?_ ?_ ?_ ?_ ?_ array map struct ?_ ?_ ?_ ?_ ?_ v
  case refine_14 | refine_16 => simp
  case refine_15 => exact fun _ _ hv hvs => List.forall_mem_cons.mpr ⟨hv, hvs⟩
  case refine_17 => exact fun _ _ he hes => List.forall_mem_cons.mpr ⟨he, hes⟩
  case refine_18 => exact fun _ _ hv => hv
  all_goals
    intros
    exact scalar _ (by simp) (by simp) (by simp)

theorem null_of_is_null {v : Value} (h : v.isNull = true) : v = .null := by
  cases v with
  | null => rfl
  | _ => cases h

variable {f f' : Single → Single} {g g' : Double → Double}

theorem map_reals_all_eq (items : List Value) : mapRealsAll f g items = items.map (mapReals f g) := by
  induction items with
  | nil => rfl
  | cons v vs ih => rw [mapRealsAll, ih, List.map_cons]

theorem map_reals_entries_eq (entries : List (String × Value)) :
    mapRealsEntries f g entries = entries.map fun e => (e.1, mapReals f g e.2) := by
  induction entries with
  | nil => rfl
  | cons e es ih => rw [mapRealsEntries, ih, List.map_cons]

theorem map_reals_comp (v : Value) : (v.mapReals f g).mapReals f' g' = v.mapReals (f' ∘ f) (g' ∘ g) := by
  induction v using induct with
  | array items ih =>
    simp only [mapReals, map_reals_all_eq, List.map_map]
    exact congrArg Value.array (List.map_congr_left ih)
  | map entries ih =>
    simp only [mapReals, map_reals_entries_eq, List.map_map]
    exact congrArg Value.map (List.map_congr_left fun e he => congrArg (e.1, ·) (ih e he))
  | struct row ih =>
    simp only [mapReals, map_reals_all_eq, List.map_map]
    exact congrArg Value.struct (List.map_congr_left ih)
  | scalar v harray hmap hstruct =>
    cases v with
    | array items => exact absurd rfl (harray items)
    | map entries => exact absurd rfl (hmap entries)
    | struct row => exact absurd rfl (hstruct row)
    | _ => rfl

theorem quiet_array (items : List Value) : (Value.array items).quiet = .array (items.map quiet) :=
  congrArg Value.array (map_reals_all_eq items)

theorem quiet_map (entries : List (String × Value)) :
    (Value.map entries).quiet = .map (entries.map fun e => (e.1, e.2.quiet)) :=
  congrArg Value.map (map_reals_entries_eq entries)

theorem quiet_struct (row : List Value) : (Value.struct row).quiet = .struct (row.map quiet) :=
  congrArg Value.struct (map_reals_all_eq row)

theorem quiet_eq_null_iff {v : Value} : v.quiet = .null ↔ v = .null := by
  cases v <;> simp [quiet, mapReals]

/-- A change of singles is determined by the singles that occur. -/
theorem map_reals_eq_iff (v : Value) : v.mapReals f g = v.mapReals f' g ↔ ∀ x, Holds x v → f x = f' x := by
  induction v using induct with
  | array items ih =>
    simp only [mapReals, map_reals_all_eq, Value.array.injEq, List.map_inj_left]
    constructor
    · intro h x hx
      cases hx with
      | item hv hx => exact (ih _ hv).mp (h _ hv) x hx
    · intro h v hv
      exact (ih v hv).mpr fun x hx => h x (.item hv hx)
  | map entries ih =>
    simp only [mapReals, map_reals_entries_eq, Value.map.injEq, List.map_inj_left, Prod.mk.injEq, true_and]
    constructor
    · intro h x hx
      cases hx with
      | entry he hx => exact (ih _ he).mp (h _ he) x hx
    · intro h e he
      exact (ih e he).mpr fun x hx => h x (.entry he hx)
  | struct row ih =>
    simp only [mapReals, map_reals_all_eq, Value.struct.injEq, List.map_inj_left]
    constructor
    · intro h x hx
      cases hx with
      | field hv hx => exact (ih _ hv).mp (h _ hv) x hx
    · intro h v hv
      exact (ih v hv).mpr fun x hx => h x (.field hv hx)
  | scalar v harray hmap hstruct =>
    cases v with
    | array items => exact absurd rfl (harray items)
    | map entries => exact absurd rfl (hmap entries)
    | struct row => exact absurd rfl (hstruct row)
    | float y =>
      simp only [mapReals, Value.float.injEq]
      constructor
      · intro h x hx
        cases hx with
        | here => exact h
      · exact fun h => h y .here
    | _ =>
      refine ⟨fun _ x hx => ?_, fun _ => rfl⟩
      cases hx

end Value

namespace Floating

theorem quiet_quiet {f : Format} (x : Floating f) : x.quiet.quiet = x.quiet := by
  unfold quiet
  repeat' split
  all_goals rfl

theorem nan_of_finite {f : Format} {x : Floating f} (h : x.isFinite = true) : x.isNaN = false := by
  have := of_decide_eq_true h
  exact decide_eq_false (by omega)

theorem quiet_finite {f : Format} {x : Floating f} (h : x.isFinite = true) : x.quiet = x := by
  rw [quiet, nan_of_finite h, if_neg (by simp)]

theorem quiet_reread_iff (x : Single) : x.reread.quiet = x.quiet ↔ (x.isFinite = true → x.narrowed = x) := by
  unfold reread
  by_cases hx : x.isFinite = true
  · rw [if_pos hx, quiet_finite hx]
    constructor
    · intro h _
      unfold quiet at h
      split at h
      · rw [← h] at hx
        exact absurd hx (by decide)
      · exact h
    · intro h
      rw [h hx, quiet_finite hx]
  · rw [if_neg hx, quiet_quiet]
    exact ⟨fun _ h => absurd h hx, fun _ => rfl⟩

end Floating

namespace Value

/-- Reading a value again keeps it exactly when each finite single is read as itself. -/
theorem quiet_reread_iff (v : Value) :
    v.reread.quiet = v.quiet ↔ ∀ x, Holds x v → x.isFinite = true → x.narrowed = x := by
  have hdouble : Floating.quiet ∘ Floating.quiet = (Floating.quiet : Double → Double) :=
    funext Floating.quiet_quiet
  rw [reread, quiet, map_reals_comp, hdouble, map_reals_eq_iff]
  exact forall₂_congr fun x _ => Floating.quiet_reread_iff x

end Value

end TypedRecords
