import TypedRecords.Text.Digits
import TypedRecords.Word
/-!
# Numeric literals

A literal is an integer and a scale: `unscaled * 10 ^ -scale`. Its digits, read as one integer, fit a
signed 128-bit word; its exponent, the length of its fraction and its scale fit a signed 32-bit word.
-/

namespace TypedRecords

-- Powers are the core library's, whatever else is in scope.
attribute [local instance (5000)] instPowNat

def maxPrecision : Nat := 38

structure Literal where
  unscaled : Int
  scale : Int
  deriving DecidableEq, Repr

namespace Literal

def isExponentMark (c : Char) : Bool := c == 'e' || c == 'E'

def splitExponent? (cs : List Char) : Option (List Char × Int) :=
  match cs.dropWhile fun c => !isExponentMark c with
  | [] => some (cs, 0)
  | _ :: exponent =>
    ((Text.signedOfDigits? exponent).bind (fitting? 32)).map fun e =>
      (cs.takeWhile fun c => !isExponentMark c, e)

def splitSign : List Char → Bool × List Char
  | '-' :: cs => (true, cs)
  | '+' :: cs => (false, cs)
  | cs => (false, cs)

def splitPoint (cs : List Char) : List Char × List Char :=
  (cs.takeWhile (· != '.'), (cs.dropWhile (· != '.')).drop 1)

/-- An optional sign, digits with at most one point and at least one digit, and an optional
exponent. -/
def parse? (text : String) : Option Literal := do
  let (mantissa, exponent) ← splitExponent? text.toList
  let (negative, digits) := splitSign mantissa
  let (whole, fraction) := splitPoint digits
  let n ← Text.natOfDigits? (whole ++ fraction)
  let z ← fitting? 128 n
  let places ← fitting? 32 fraction.length
  let scale ← fitting? 32 (places - exponent)
  return ⟨if negative then -z else z, scale⟩

def isIntegral (text : String) : Bool :=
  text.toList.all fun c => c != '.' && !isExponentMark c

def integralDigits (text : String) : Nat :=
  let digits := text.toList.dropWhile (fun c => c == '-' || c == '+') |>.dropWhile (· == '0')
  max digits.length 1

def long? (text : String) : Option Int := (Text.signedOfDigits? text.toList).bind (fitting? 64)

def decimalType? (l : Literal) : Option (Nat × Nat) :=
  if 0 ≤ l.scale then
    let precision := max (Text.digitsOf l.unscaled.natAbs).length l.scale.toNat
    if precision ≤ maxPrecision then some (precision, l.scale.toNat) else none
  else none

/-- A power of ten. The larger ones are refused before they are built; no word of 128 bits holds them. -/
def powerOfTen (n : Nat) : Except WordFault Int :=
  if n ≤ maxPrecision then Words.checked 128 (10 ^ n) else .error .refused

/-- The quotient by a power of ten, rounded to the nearest integer, a tie away from zero. -/
def roundedQuotient (z : Int) (down : Nat) : Except WordFault Int := do
  let factor ← Words.unchecked 128 (10 ^ down)
  let quotient ← Words.unchecked 128 (z.tdiv factor)
  let remainder ← Words.unchecked 128 (z.tmod factor)
  let double ← Words.uncheckedUnsigned 128 (remainder.natAbs * 2)
  if factor.natAbs ≤ double then Words.unchecked 128 (quotient + z.sign) else .ok quotient

/-- The unscaled value at another scale. It is exact towards a larger scale, where it may leave the
128-bit range, and rounded towards a smaller one. The distance between the scales is not checked. -/
def rescale (l : Literal) (scale : Nat) : Except WordFault Int := do
  if l.scale = scale then .ok l.unscaled
  else if l.scale < scale then
    let up ← Words.unchecked 32 (scale - l.scale)
    let factor ← powerOfTen up.toNat
    Words.checked 128 (l.unscaled * factor)
  else
    let down ← Words.unchecked 32 (l.scale - scale)
    if maxPrecision < down.toNat then .ok 0 else roundedQuotient l.unscaled down.toNat

end Literal

end TypedRecords
