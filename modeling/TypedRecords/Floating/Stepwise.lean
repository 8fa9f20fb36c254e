import TypedRecords.Floating.Rounding
/-!
# Stepwise decimal reading

A reading in double arithmetic: a significand of at most 64 bits is rounded to a double, and then
multiplied or divided by a rounded power of ten. Its last place may differ from that of the nearest
double.
-/

namespace TypedRecords.Floating

-- Powers are the core library's, whatever else is in scope.
attribute [local instance (5000)] instPowNat

/-- Extends a significand by digits as long as it stays below `2 ^ 64`; the digits left over follow. -/
def absorb (significand : Nat) : List Char → Nat × List Char
  | [] => (significand, [])
  | c :: cs =>
    let next := 10 * significand + Text.digitValue c
    if next < 2 ^ (64 : Nat) then absorb next cs else (significand, c :: cs)

def stepLimit : Int := 308

def scaleByTen? (x : Double) (exponent : Int) : Option Double :=
  if exponent < -stepLimit then
    if x.equals zero then some x
    else scaleByTen? (x.div (ofDecimal false 1 stepLimit)) (exponent + stepLimit)
  else if exponent < 0 then some (x.div (ofDecimal false 1 (-exponent)))
  else if stepLimit < exponent then if x.equals zero then some x else none
  else
    let y := x.mul (ofDecimal false 1 exponent)
    if y.isFinite then some y else none
termination_by exponent.natAbs
decreasing_by simp only [stepLimit] at *; omega

/-- The number with these digits before and after the point and this exponent. Digits past the
significand's range only count for the exponent. -/
def stepwise? (negative : Bool) (whole fraction : List Char) (exponent : Int) : Option Double :=
  let (significand, surplus) := absorb 0 whole
  let (significand, unused) := absorb significand fraction
  let scale := exponent + surplus.length - (fraction.length - unused.length : Nat)
  (scaleByTen? (ofInt significand) scale).map fun x => if negative then x.negate else x

end TypedRecords.Floating
