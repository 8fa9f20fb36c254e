import TypedRecords.Floating.Rounding
/-!
# Shortest decimal form

The decimal with the fewest digits that reads back as the given value; of two such decimals the one
nearer to it.
-/

namespace TypedRecords

-- Powers are the core library's, whatever else is in scope.
attribute [local instance (5000)] instPowNat

inductive Tie where
  | toEven
  | up
  deriving DecidableEq, Repr

structure DecimalForm where
  significand : Nat
  exponent : Int
  deriving DecidableEq, Repr

namespace Floating

variable {f : Format}

def readsBack (x : Floating f) (d : DecimalForm) : Bool :=
  (ofDecimal false d.significand d.exponent : Floating f).magnitude == x.magnitude

/-- All digits of the absolute value: a multiple of `10 ^ -unitBits`. -/
def exactForm (x : Floating f) : DecimalForm := ⟨x.units * 5 ^ f.unitBits, -(f.unitBits : Int)⟩

/-- The better of the two neighbours of `exact` on the grid that drops its last `dropped` digits,
if one of them reads back. -/
def onGrid? (tie : Tie) (x : Floating f) (exact : DecimalForm) (dropped : Nat) :
    Option DecimalForm :=
  let step := 10 ^ dropped
  let below : DecimalForm := ⟨exact.significand / step, exact.exponent + dropped⟩
  let above : DecimalForm := ⟨below.significand + 1, below.exponent⟩
  let rest := exact.significand % step
  match x.readsBack below, rest != 0 && x.readsBack above with
  | false, false => none
  | true, false => some below
  | false, true => some above
  | true, true =>
    if 2 * rest < step then some below
    else if step < 2 * rest then some above
    else match tie with
      | .up => some above
      | .toEven => some (if below.significand % 2 = 0 then below else above)

/-- The coarsest grid with a neighbour that reads back wins; the finest holds the value itself. -/
def shortest (tie : Tie) (x : Floating f) : DecimalForm :=
  let exact := x.exactForm
  let count := (Text.digitsOf exact.significand).length
  ((List.range count).findSome? fun n => onGrid? tie x exact (count - 1 - n)).getD exact

end Floating

end TypedRecords
