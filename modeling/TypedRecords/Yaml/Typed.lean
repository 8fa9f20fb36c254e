import TypedRecords.Floating.Reader
import TypedRecords.Yaml.Node
/-!
# Typed scalars

Plain scalars are read as the type that is asked for, whatever their tag. A literal scalar needs the tag of
that type.
-/

namespace TypedRecords.Yaml.Scalar

-- Powers are the core library's, whatever else is in scope.
attribute [local instance (5000)] instPowNat

open Text (hexValue? natOfDigits?)

def textAs? (tag : String) (s : Scalar) : Option String :=
  if s.style = .plain || (s.style = .literal && s.tag = some ("tag:yaml.org,2002:" ++ tag)) then
    some s.text
  else none

def isNullWord (text : String) : Bool := ["~", "null", "Null", "NULL"].contains text

/-- A text that may be missing. Only a plain scalar can stand for a missing one: without a tag if it is empty
or a word for null, and with the tag of null, which then has to be such a word. -/
def optionalText? (s : Scalar) : Option (Option String) :=
  if s.style != .plain then some (some s.text)
  else match s.tag with
    | none => some (if s.text.isEmpty || isNullWord s.text then none else some s.text)
    | some tag =>
      if tag != "tag:yaml.org,2002:null" then some (some s.text)
      else if isNullWord s.text then some none
      else none

def bool? (s : Scalar) : Option Bool := do
  let text ← s.textAs? "bool"
  if ["true", "True", "TRUE"].contains text then some true
  else if ["false", "False", "FALSE"].contains text then some false
  else none

def radixDigits? (radix : Nat) (cs : List Char) : Option Nat :=
  if cs.isEmpty then none
  else cs.foldl (fun acc c => do
    let n ← acc
    let v ← hexValue? c
    if v < radix then some (radix * n + v) else none) (some 0)

/-- Binary, octal and hexadecimal numbers carry their mark; a decimal number has no leading zero. -/
def magnitude? : List Char → Option Nat
  | '0' :: 'x' :: cs => radixDigits? 16 cs
  | '0' :: 'o' :: cs => radixDigits? 8 cs
  | '0' :: 'b' :: cs => radixDigits? 2 cs
  | '0' :: _ :: _ => none
  | cs => natOfDigits? cs

def natural? (s : Scalar) : Option Nat := do
  let text ← s.textAs? "int"
  let n ← match text.toList with
    | '+' :: cs => magnitude? cs
    | cs => magnitude? cs
  if n < 2 ^ (64 : Nat) then some n else none

/-- A double. The words for infinity and for NaN start with a point; a number out of range is refused. -/
def real? (s : Scalar) : Option Double := do
  let text ← s.textAs? "float"
  if [".inf", ".Inf", ".INF", "+.inf", "+.Inf", "+.INF"].contains text then
    some (Floating.infinity false)
  else if ["-.inf", "-.Inf", "-.INF"].contains text then some (Floating.infinity true)
  else if [".nan", ".NaN", ".NAN"].contains text then some Floating.nan
  else (Floating.number? text.toList).bind fun x => if x.isFinite then some x else none

end TypedRecords.Yaml.Scalar
