import TypedRecords.Floating.Shortest
/-!
# Text of floating point values

Shortest digits set out in plain or in scientific notation. Where one form gives way to the other is
a `Layout`, chosen by the format that is written.
-/

namespace TypedRecords

/-- `plainRange` holds the first scientific exponent that is written plainly and the first above it
that no longer is; without it all are. `keepPoint` writes `.0` after a whole number. -/
structure Layout where
  plainRange : Option (Int × Int)
  keepPoint : Bool
  tie : Tie
  deriving DecidableEq, Repr

namespace Layout

def recordDouble : Layout := ⟨some (-5, 16), true, .toEven⟩

def recordSingle : Layout := ⟨some (-6, 13), true, .toEven⟩

/-- Numbers quoted in messages: never an exponent, and whole numbers without a point. -/
def message : Layout := ⟨none, false, .up⟩

def isPlain (l : Layout) (exponent : Int) : Bool :=
  match l.plainRange with
  | none => true
  | some (low, high) => low ≤ exponent && exponent < high

def plainText (l : Layout) (digits : List Char) (exponent : Int) : List Char :=
  match exponent with
  | .ofNat zeros =>
    digits ++ List.replicate zeros '0' ++ if l.keepPoint then ['.', '0'] else []
  | .negSucc n =>
    let places := n + 1
    if places < digits.length then
      digits.take (digits.length - places) ++ '.' :: digits.drop (digits.length - places)
    else '0' :: '.' :: (List.replicate (places - digits.length) '0' ++ digits)

def scientificText (digits : List Char) (exponent : Int) : List Char :=
  let tail := match digits.drop 1 with
    | [] => []
    | rest => '.' :: rest
  let sign := if exponent < 0 then '-' else '+'
  digits.take 1 ++ tail ++ 'e' :: sign :: Text.digitsOf exponent.natAbs

def formText (l : Layout) (d : DecimalForm) : List Char :=
  let all := Text.digitsOf d.significand
  let digits := (all.reverse.dropWhile (· == '0')).reverse
  if digits.isEmpty then plainText l ['0'] 0
  else
    let exponent := d.exponent + (all.length - digits.length : Nat)
    let leading := exponent + digits.length - 1
    if l.isPlain leading then plainText l digits exponent else scientificText digits leading

end Layout

namespace Floating

variable {f : Format}

def finiteText (l : Layout) (x : Floating f) : List Char :=
  (if x.isNegative then ['-'] else []) ++ l.formText (x.shortest l.tie)

def messageText (x : Floating f) : String :=
  if x.isNaN then "NaN"
  else if x.isInfinite then (if x.isNegative then "-inf" else "inf")
  else String.ofList (x.finiteText .message)

end Floating

end TypedRecords
