import TypedRecords.Calendar.Day
import TypedRecords.Text.Blank
import TypedRecords.Text.Digits
import TypedRecords.Word
/-!
# Reading dates and timestamps

Two grammars. The loose one skips blanks before each number and takes numbers of varying width; the
strict one is RFC 3339 with its fixed widths and its offset from UTC.
-/

namespace TypedRecords.Calendar

open Text (isDigit digitsValue trimStart)

/-- At least one and at most `most` digits. -/
def upTo (most : Nat) (cs : List Char) : Option (Nat × List Char) :=
  let digits := (cs.take most).takeWhile isDigit
  if digits.isEmpty then none else some (digitsValue digits, cs.drop digits.length)

def exactly (count : Nat) (cs : List Char) : Option (Nat × List Char) :=
  let digits := cs.take count
  if digits.length = count ∧ digits.all isDigit then some (digitsValue digits, cs.drop count)
  else none

def expect (c : Char) : List Char → Option (List Char)
  | d :: cs => if d = c then some cs else none
  | [] => none

/-- Four digits at most, or a sign and any number of digits. -/
def yearField (cs : List Char) : Option (Int × List Char) :=
  match trimStart cs with
  | '-' :: cs => (upTo cs.length cs).map fun (n, r) => (-(n : Int), r)
  | '+' :: cs => (upTo cs.length cs).map fun (n, r) => ((n : Int), r)
  | cs => (upTo 4 cs).map fun (n, r) => ((n : Int), r)

def shortField (cs : List Char) : Option (Nat × List Char) := upTo 2 (trimStart cs)

def CivilDate.valid? (d : CivilDate) : Option CivilDate := if d.IsValid then some d else none

def dateFields (cs : List Char) : Option (CivilDate × List Char) := do
  let (year, cs) ← yearField cs
  let cs ← expect '-' cs
  let (month, cs) ← shortField cs
  let cs ← expect '-' cs
  let (day, cs) ← shortField cs
  let date ← CivilDate.valid? ⟨year, month, day⟩
  return (date, cs)

/-- An optional fraction of a second in microseconds; further digits are dropped. -/
def fractionField : List Char → Option (Nat × List Char)
  | '.' :: cs =>
    let (digits, rest) := Text.spanDigits cs
    if digits.isEmpty then none
    else
      let kept := digits.take 6
      some (digitsValue (kept ++ List.replicate (6 - kept.length) '0'), rest)
  | cs => some (0, cs)

/-- Microseconds since midnight. Second 60 is the first second of the next minute. -/
def clockMicros? (hour minute second micros : Nat) : Option Nat :=
  if hour ≤ 23 ∧ minute ≤ 59 ∧ second ≤ 60 then
    some (((hour * 60 + minute) * 60 + second) * 1000000 + micros)
  else none

def looseClock (cs : List Char) : Option (Nat × List Char) := do
  let (hour, cs) ← shortField cs
  let cs ← expect ':' cs
  let (minute, cs) ← shortField cs
  let cs ← expect ':' cs
  let (second, cs) ← shortField cs
  let (micros, cs) ← fractionField cs
  let clock ← clockMicros? hour minute second micros
  return (clock, cs)

def complete {α : Type} : α × List Char → Option α
  | (x, []) => some x
  | _ => none

def plainDate? (cs : List Char) : Option CivilDate := (dateFields cs).bind complete

/-- A date and a time of day with `T` or blanks, possibly none, between them. -/
def looseDateTime? (cs : List Char) : Option (CivilDate × Nat) := do
  let (date, cs) ← dateFields cs
  let (clock, cs) ← looseClock (match cs with
    | 'T' :: r => r
    | r => r)
  complete ((date, clock), cs)

def offsetSign (c : Char) : Option Int :=
  if c = '+' then some 1 else if c = '-' ∨ c = '\u2212' then some (-1) else none

/-- Minutes east of UTC. -/
def offsetField : List Char → Option (Int × List Char)
  | 'Z' :: cs => some (0, cs)
  | 'z' :: cs => some (0, cs)
  | c :: cs => do
    let sign ← offsetSign c
    let (hours, cs) ← exactly 2 cs
    let cs ← expect ':' cs
    let (minutes, cs) ← exactly 2 cs
    if hours ≤ 23 ∧ minutes ≤ 59 then some (sign * (hours * 60 + minutes : Nat), cs) else none
  | [] => none

def instant (date : CivilDate) (clock : Nat) : Int := date.dayNumber * microsPerDay + clock

def strictDateFields (cs : List Char) : Option (CivilDate × List Char) := do
  let (year, cs) ← exactly 4 cs
  let cs ← expect '-' cs
  let (month, cs) ← exactly 2 cs
  let cs ← expect '-' cs
  let (day, cs) ← exactly 2 cs
  let date ← CivilDate.valid? ⟨year, month, day⟩
  return (date, cs)

def strictDate? (cs : List Char) : Option CivilDate := (strictDateFields cs).bind complete

def timeMark : List Char → Option (List Char)
  | 'T' :: cs => some cs
  | 't' :: cs => some cs
  | ' ' :: cs => some cs
  | _ => none

/-- RFC 3339. -/
def strictTimestamp? (cs : List Char) : Option Int := do
  let (date, cs) ← strictDateFields cs
  let cs ← timeMark cs
  let (hour, cs) ← exactly 2 cs
  let cs ← expect ':' cs
  let (minute, cs) ← exactly 2 cs
  let cs ← expect ':' cs
  let (second, cs) ← exactly 2 cs
  let (micros, cs) ← fractionField cs
  let clock ← clockMicros? hour minute second micros
  let (offset, cs) ← offsetField cs
  complete (instant date clock - offset * 60 * microsPerSecond, cs)

def dropZulu (cs : List Char) : List Char := if cs.getLast? = some 'Z' then cs.dropLast else cs

/-- The day that a text means: a calendar date or a date and a time of day if it holds a minus sign,
and otherwise a number of days since the epoch. -/
def readDate? (text : String) : Option Int :=
  let cs := text.toList
  if cs.contains '-' then
    match plainDate? cs with
    | some date => some date.dayNumber
    | none => (looseDateTime? cs).map fun (date, _) => date.dayNumber
  else (Text.signedOfDigits? (Text.trim cs)).bind (fitting? 32)

/-- The instant that a text means, in microseconds since the epoch. Without an offset it is taken as
UTC; a date alone is its midnight. -/
def readTimestamp? (text : String) : Option Int :=
  let cs := text.toList
  match strictTimestamp? cs with
  | some micros => some micros
  | none =>
    match looseDateTime? (dropZulu cs) with
    | some (date, clock) => some (instant date clock)
    | none => (plainDate? cs).map fun date => instant date 0

end TypedRecords.Calendar
