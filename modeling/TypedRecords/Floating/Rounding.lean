import TypedRecords.Floating.Basic
import TypedRecords.Text.Digits
/-!
# Rounding to a binary format

One rounding serves reading, arithmetic and narrowing: the nearest multiple of the unit in the last
place, a tie to the even one, and infinity past the largest finite value.
-/

namespace TypedRecords

-- Powers are the core library's, whatever else is in scope.
attribute [local instance (5000)] instPowNat

/-- The quotient rounded to the nearest integer, a tie to the even one. -/
def roundQuotient (num den : Nat) : Nat :=
  let q := num / den
  let r := num % den
  if 2 * r < den then q
  else if den < 2 * r then q + 1
  else q + q % 2

def bitLength (n : Nat) : Nat := if n = 0 then 0 else n.log2 + 1

namespace Floating

variable {f : Format}

/-- The packed magnitude nearest to `num / den`. With `s` bits dropped and significand `r` it is
`s * 2 ^ (precision - 1) + r`: a carry out of the significand moves on to the next exponent, and
small values with no leading bit need no case of their own. -/
def nearestMagnitude (f : Format) (num den : Nat) : Nat :=
  let scaled := num * 2 ^ f.unitBits
  let dropped := bitLength (scaled / den) - f.precision
  min (dropped * 2 ^ (f.precision - 1) + roundQuotient scaled (den * 2 ^ dropped)) f.infinityBits

def ofRatio (negative : Bool) (num den : Nat) : Floating f :=
  pack negative (nearestMagnitude f num den)

def ofInt (z : Int) : Floating f := ofRatio (z < 0) z.natAbs 1

/-- The value nearest to `significand * 10 ^ exponent`. An exponent so far out that the result is
certainly zero or infinity is not expanded. -/
def ofDecimal (negative : Bool) (significand : Nat) (exponent : Int) : Floating f :=
  let top := exponent + (Text.digitsOf significand).length
  if significand = 0 ∨ top < -(f.unitBits : Int) then pack negative 0
  else if (f.unitBits : Int) + 1 < top then infinity negative
  else match exponent with
    | .ofNat e => ofRatio negative (significand * 10 ^ e) 1
    | .negSucc e => ofRatio negative significand (10 ^ (e + 1))

def mul (x y : Floating f) : Floating f :=
  ofRatio (x.isNegative != y.isNegative) (x.units * y.units) (2 ^ (2 * f.unitBits))

def div (x y : Floating f) : Floating f :=
  ofRatio (x.isNegative != y.isNegative) x.units y.units

def convert {g : Format} (x : Floating f) : Floating g :=
  if x.isNaN then nan
  else if x.isInfinite then infinity x.isNegative
  else ofRatio x.isNegative x.units (2 ^ f.unitBits)

/-- The base raised to `n` by repeated squaring, each product rounded. The accumulator is
multiplied by the current square for each set bit of `n`, the lowest first. -/
def power (base : Floating f) (n : Nat) (acc : Floating f) : Floating f :=
  let acc := if n % 2 = 1 then acc.mul base else acc
  if n / 2 = 0 then acc else power (base.mul base) (n / 2) acc
termination_by n
decreasing_by omega

def powerOfTen (n : Nat) : Floating f := power (ofInt 10) n (ofInt 1)

end Floating

end TypedRecords
