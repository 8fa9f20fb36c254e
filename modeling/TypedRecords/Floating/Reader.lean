import TypedRecords.Floating.Rounding
/-!
# Reading floating point values

Digits with at most one point and at least one digit, and an optional exponent, rounded to the nearest
value.
-/

namespace TypedRecords.Floating

open Text (spanDigits digitsValue signedOfDigits?)

variable {f : Format}

def pointField : List Char → List Char × List Char
  | '.' :: cs => spanDigits cs
  | cs => ([], cs)

/-- The exponent that takes up the rest of a number; it is 0 where none is written. -/
def exponentField : List Char → Option Int
  | [] => some 0
  | c :: cs => if c = 'e' ∨ c = 'E' then signedOfDigits? cs else none

/-- A number without its sign; infinity beyond the largest value. -/
def unsigned? (negative : Bool) (cs : List Char) : Option (Floating f) :=
  let (whole, cs) := spanDigits cs
  let (fraction, cs) := pointField cs
  if whole.isEmpty && fraction.isEmpty then none
  else (exponentField cs).map fun exponent =>
    ofDecimal negative (digitsValue (whole ++ fraction)) (exponent - fraction.length)

def number? : List Char → Option (Floating f)
  | '-' :: cs => unsigned? true cs
  | '+' :: cs => unsigned? false cs
  | cs => unsigned? false cs

def word? (cs : List Char) : Option (Floating f) :=
  let word := cs.map Char.toLower
  if word = ['n', 'a', 'n'] then some nan
  else if word = ['i', 'n', 'f'] ∨ word = ['i', 'n', 'f', 'i', 'n', 'i', 't', 'y'] then
    some (infinity false)
  else none

def ofText? (cs : List Char) : Option (Floating f) :=
  match cs with
  | '-' :: cs => (unsigned? true cs).orElse fun _ => (word? cs).map negate
  | '+' :: cs => (unsigned? false cs).orElse fun _ => word? cs
  | cs => (unsigned? false cs).orElse fun _ => word? cs

end TypedRecords.Floating
