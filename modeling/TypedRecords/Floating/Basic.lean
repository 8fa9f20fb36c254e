/-!
# Binary floating point values

A value is the number that packs its sign, exponent and fraction fields. Every finite value is an
integral multiple of one smallest unit, so exact arithmetic needs natural numbers only.
-/

namespace TypedRecords

-- Powers are the core library's, whatever else is in scope.
attribute [local instance (5000)] instPowNat

/-- The widths of a binary interchange format. `precision` counts the leading bit, which is not
stored. -/
structure Format where
  precision : Nat
  exponentBits : Nat
  deriving DecidableEq, Repr

namespace Format

abbrev single : Format := ⟨24, 8⟩
abbrev double : Format := ⟨53, 11⟩

def width (f : Format) : Nat := f.precision + f.exponentBits

/-- The packed magnitudes below this one are finite; it is infinity itself. -/
def infinityBits (f : Format) : Nat := (2 ^ f.exponentBits - 1) * 2 ^ (f.precision - 1)

/-- The smallest unit is `2 ^ -unitBits`. -/
def unitBits (f : Format) : Nat := 2 ^ (f.exponentBits - 1) + f.precision - 3

end Format

structure Floating (f : Format) where
  bits : BitVec f.width
  deriving DecidableEq, Repr

abbrev Single := Floating Format.single
abbrev Double := Floating Format.double

namespace Floating

variable {f : Format}

def pack (negative : Bool) (magnitude : Nat) : Floating f :=
  ⟨BitVec.ofNat f.width (magnitude + if negative then 2 ^ (f.width - 1) else 0)⟩

def magnitude (x : Floating f) : Nat := x.bits.toNat % 2 ^ (f.width - 1)

def isNegative (x : Floating f) : Bool := 2 ^ (f.width - 1) ≤ x.bits.toNat

def isNaN (x : Floating f) : Bool := f.infinityBits < x.magnitude

def isInfinite (x : Floating f) : Bool := x.magnitude == f.infinityBits

def isFinite (x : Floating f) : Bool := x.magnitude < f.infinityBits

def zero : Floating f := pack false 0

def infinity (negative : Bool) : Floating f := pack negative f.infinityBits

def nan : Floating f := pack false (f.infinityBits + 2 ^ (f.precision - 2))

def negate (x : Floating f) : Floating f := pack (!x.isNegative) x.magnitude

def units (x : Floating f) : Nat :=
  let stored := x.magnitude % 2 ^ (f.precision - 1)
  match x.magnitude / 2 ^ (f.precision - 1) with
  | 0 => stored
  | exponent + 1 => (stored + 2 ^ (f.precision - 1)) * 2 ^ exponent

/-- Orders all values but NaN; both zeros have rank 0. -/
def rank (x : Floating f) : Int := if x.isNegative then -x.magnitude else x.magnitude

/-- NaN is below, above and equal to nothing. -/
def less (x y : Floating f) : Bool := !x.isNaN && !y.isNaN && x.rank < y.rank

def atMost (x y : Floating f) : Bool := !x.isNaN && !y.isNaN && x.rank ≤ y.rank

def equals (x y : Floating f) : Bool := !x.isNaN && !y.isNaN && x.rank == y.rank

end Floating

end TypedRecords
