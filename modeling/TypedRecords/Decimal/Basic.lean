import TypedRecords.Decimal.Literal
import TypedRecords.Error
/-!
# Decimals

Exact decimals of a declared precision and scale. The bounds are part of the type, so a decimal is
valid wherever it occurs.
-/

namespace TypedRecords

-- Powers are the core library's, whatever else is in scope.
attribute [local instance (5000)] instPowNat

/-- The number `unscaled * 10 ^ -scale`, at most `precision` digits long. -/
structure Decimal where
  unscaled : Int
  precision : Nat
  scale : Nat
  precision_pos : 0 < precision
  precision_le : precision ≤ maxPrecision
  scale_le : scale ≤ precision
  unscaled_lt : unscaled.natAbs < 10 ^ precision
  deriving DecidableEq, Repr

namespace Decimal

def ofUnscaled? (unscaled : Int) (precision scale : Nat) : Option Decimal :=
  if h : 0 < precision ∧ precision ≤ maxPrecision ∧ scale ≤ precision ∧
      unscaled.natAbs < 10 ^ precision then
    some ⟨unscaled, precision, scale, h.1, h.2.1, h.2.2.1, h.2.2.2⟩
  else none

def tryLiteral (text : String) (precision scale : Nat) : Except WordFault Decimal := do
  let literal ← Words.given (Literal.parse? text)
  let unscaled ← literal.rescale scale
  Words.given (ofUnscaled? unscaled precision scale)

def ofUnscaled (unscaled : Int) (precision scale : Nat) : Except Error Decimal :=
  match ofUnscaled? unscaled precision scale with
  | some d => .ok d
  | none => .error (.decimalOverflow (String.ofList (Text.intDigits unscaled)) precision scale)

def ofLiteral (text : String) (precision scale : Nat) : Except Error Decimal :=
  match tryLiteral text precision scale with
  | .ok d => .ok d
  | .error .refused => .error (.decimalOverflow text precision scale)
  | .error (.wrapped _) => .error .panic

/-- All `scale` digits after the point, at least one before it. -/
def chars (d : Decimal) : List Char :=
  let digits := Text.padDigits (d.scale + 1) (Text.digitsOf d.unscaled.natAbs)
  let whole := digits.take (digits.length - d.scale)
  let fraction := digits.drop (digits.length - d.scale)
  (if d.unscaled < 0 then ['-'] else []) ++ whole ++ if d.scale = 0 then [] else '.' :: fraction

def text (d : Decimal) : String := String.ofList d.chars

def toDouble (d : Decimal) : Double :=
  (Floating.ofInt d.unscaled).div (Floating.powerOfTen d.scale)

end Decimal

end TypedRecords
