import TypedRecords.Json.Basic
import TypedRecords.Json.Outline
import TypedRecords.Text.Digits
/-!
# Reading JSON

The grammar of RFC 8259 without any extension, and a bound on the nesting of arrays and objects.
Objects keep repeated keys; `Json.settle` resolves them. An outline says what is read.
-/

namespace TypedRecords.Json

open Text (spanDigits hexValue?)

def isSpace (c : Char) : Bool := c == ' ' || c == '\t' || c == '\n' || c == '\r'

def skipSpace (cs : List Char) : List Char := cs.dropWhile isSpace

/-- What the part of a string already read leaves open. -/
inductive Pending where
  | nothing
  /-- A backslash. -/
  | escape
  /-- `left` more hexadecimal digits of a code unit whose read digits are worth `value`; `high` is
  the first half of a surrogate pair when the unit is its second half. -/
  | unit (high : Option Nat) (left value : Nat)
  /-- The first half of a surrogate pair. -/
  | half (high : Nat)
  /-- The first half of a surrogate pair and a backslash. -/
  | halfEscape (high : Nat)
  deriving DecidableEq, Repr

/-- What a completed code unit stands for: a character, or the first half of a pair. -/
def closeUnit (high : Option Nat) (value : Nat) : Option (Option Char × Pending) :=
  match high with
  | none =>
    if 0xD800 ≤ value ∧ value < 0xDC00 then some (none, .half value)
    else if 0xDC00 ≤ value ∧ value < 0xE000 then none
    else some (some (Char.ofNat value), .nothing)
  | some h =>
    if 0xDC00 ≤ value ∧ value < 0xE000 then
      some (some (Char.ofNat (0x10000 + (h - 0xD800) * 0x400 + (value - 0xDC00))), .nothing)
    else none

def simpleEscape? (c : Char) : Option Char :=
  match c with
  | '"' => some '"'
  | '\\' => some '\\'
  | '/' => some '/'
  | 'b' => some (Char.ofNat 0x08)
  | 'f' => some (Char.ofNat 0x0C)
  | 'n' => some '\n'
  | 'r' => some '\r'
  | 't' => some '\t'
  | _ => none

def stringBody (state : Pending) : List Char → Option (List Char × List Char)
  | [] => none
  | c :: rest =>
    match state with
    | .nothing =>
      if c = '"' then some ([], rest)
      else if c = '\\' then stringBody .escape rest
      else if c.toNat < 0x20 then none
      else (stringBody .nothing rest).map fun (cs, r) => (c :: cs, r)
    | .escape =>
      if c = 'u' then stringBody (.unit none 4 0) rest
      else match simpleEscape? c with
        | some d => (stringBody .nothing rest).map fun (cs, r) => (d :: cs, r)
        | none => none
    | .unit high left value =>
      match hexValue? c with
      | none => none
      | some v =>
        if left ≤ 1 then
          match closeUnit high (16 * value + v) with
          | none => none
          | some (some d, next) => (stringBody next rest).map fun (cs, r) => (d :: cs, r)
          | some (none, next) => stringBody next rest
        else stringBody (.unit high (left - 1) (16 * value + v)) rest
    | .half high => if c = '\\' then stringBody (.halfEscape high) rest else none
    | .halfEscape high => if c = 'u' then stringBody (.unit (some high) 4 0) rest else none

def skipString : List Char → Option (List Char)
  | [] => none
  | '"' :: rest => some rest
  | '\\' :: 'u' :: a :: b :: c :: d :: rest =>
    if [a, b, c, d].all fun c => (hexValue? c).isSome then skipString rest else none
  | '\\' :: c :: rest => if (simpleEscape? c).isSome then skipString rest else none
  | c :: rest => if c.toNat < 0x20 then none else skipString rest

def stringText (o : Outline) (cs : List Char) : Option (String × List Char) :=
  match o with
  | .nothing => (skipString cs).map ("", ·)
  | _ => (stringBody .nothing cs).map fun (s, r) => (String.ofList s, r)

/-- At least one digit, and the first is not a zero that others follow. -/
def wholePart (cs : List Char) : Option (List Char × List Char) :=
  match spanDigits cs with
  | ([], _) => none
  | ('0' :: _ :: _, _) => none
  | part => some part

def fractionPart : List Char → Option (List Char × List Char)
  | '.' :: cs =>
    match spanDigits cs with
    | ([], _) => none
    | (digits, rest) => some ('.' :: digits, rest)
  | cs => some ([], cs)

/-- An exponent is kept as `e`, a sign and its digits, whatever the letter and whether or not the
sign was written. -/
def exponentPart : List Char → Option (List Char × List Char)
  | c :: cs =>
    if c = 'e' ∨ c = 'E' then
      let (sign, digits) := match cs with
        | '-' :: r => ('-', r)
        | '+' :: r => ('+', r)
        | r => ('+', r)
      match spanDigits digits with
      | ([], _) => none
      | (ds, rest) => some ('e' :: sign :: ds, rest)
    else some ([], c :: cs)
  | [] => some ([], [])

def numberText (cs : List Char) : Option (List Char × List Char) := do
  let (sign, cs) := match cs with
    | '-' :: r => (['-'], r)
    | r => ([], r)
  let (whole, cs) ← wholePart cs
  let (fraction, cs) ← fractionPart cs
  let (exponent, cs) ← exponentPart cs
  return (sign ++ whole ++ fraction ++ exponent, cs)

def number? (text : String) : Option Json :=
  match numberText text.toList with
  | some (literal, []) => some (.num (String.ofList literal))
  | _ => none

mutual

/-- One value and what follows it, `depth` further levels of nesting allowed. -/
def readValue (o : Outline) (fuel depth : Nat) (cs : List Char) : Option (Json × List Char) :=
  match fuel with
  | 0 => none
  | fuel + 1 =>
    match skipSpace cs with
    | 'n' :: 'u' :: 'l' :: 'l' :: rest => some (.null, rest)
    | 't' :: 'r' :: 'u' :: 'e' :: rest => some (.bool true, rest)
    | 'f' :: 'a' :: 'l' :: 's' :: 'e' :: rest => some (.bool false, rest)
    | '"' :: rest => (stringText o rest).map fun (s, r) => (.str s, r)
    | '[' :: rest =>
      match o.room depth with
      | 0 => none
      | depth + 1 =>
        match skipSpace rest with
        | ']' :: r => some (.arr [], r)
        | r => (readItems o fuel depth r).map fun (vs, r) => (.arr vs, r)
    | '{' :: rest =>
      match o.room depth with
      | 0 => none
      | depth + 1 =>
        match skipSpace rest with
        | '}' :: r => some (.obj [], r)
        | r => (readMembers o fuel depth r).map fun (ms, r) => (.obj ms, r)
    | rest => (numberText rest).map fun (t, r) => (.num (String.ofList t), r)

def readItems (o : Outline) (fuel depth : Nat) (cs : List Char) :
    Option (List Json × List Char) :=
  match fuel with
  | 0 => none
  | fuel + 1 =>
    match readValue o.head fuel depth cs with
    | none => none
    | some (v, rest) =>
      match skipSpace rest with
      | ',' :: r => (readItems o.tail fuel depth r).map fun (vs, r) => (v :: vs, r)
      | ']' :: r => some ([v], r)
      | _ => none

def readMembers (o : Outline) (fuel depth : Nat) (cs : List Char) :
    Option (List (String × Json) × List Char) :=
  match fuel with
  | 0 => none
  | fuel + 1 =>
    match skipSpace cs with
    | '"' :: rest =>
      match stringText o rest with
      | none => none
      | some (key, rest) =>
        match skipSpace rest with
        | ':' :: rest =>
          match readValue (o.member key) fuel depth rest with
          | none => none
          | some (v, rest) =>
            match skipSpace rest with
            | ',' :: r => (readMembers o fuel depth r).map fun (ms, r) => ((key, v) :: ms, r)
            | '}' :: r => some ([(key, v)], r)
            | _ => none
        | _ => none
    | _ => none

end

/-- A text that holds one value and nothing else but spaces. A level of nesting takes two units of
fuel and at least one character. -/
def read? (o : Outline) (depth : Nat) (text : String) : Option Json :=
  let cs := text.toList
  match readValue o (2 * cs.length + 2) depth cs with
  | some (v, rest) => if (skipSpace rest).isEmpty then some v else none
  | none => none

def maxNesting : Nat := 127

def numberKey : String := "$serde_json::private::Number"

/-- A boxed number has its text for its only member. -/
def boxed? : List (String × Json) → Option Json
  | [(_, .str text)] => number? text
  | _ => none

mutual

def unbox? : Json → Option Json
  | .arr items => (unboxAll? items).map .arr
  | .obj members =>
    if members.head?.any (·.1 == numberKey) then boxed? members
    else (unboxValues? members).map .obj
  | v => some v

def unboxAll? : List Json → Option (List Json)
  | [] => some []
  | v :: vs =>
    match v.unbox?, unboxAll? vs with
    | some v, some vs => some (v :: vs)
    | _, _ => none

def unboxValues? : List (String × Json) → Option (List (String × Json))
  | [] => some []
  | (k, v) :: rest =>
    match v.unbox?, unboxValues? rest with
    | some v, some rest => some ((k, v) :: rest)
    | _, _ => none

end

/-- A record: its numbers are unboxed and its repeated keys resolved. -/
def ofText? (text : String) : Option Json :=
  ((read? .all maxNesting text).bind unbox?).map settle

/-- A document, of which only the outline has to be readable. -/
def document? (o : Outline) (text : String) : Option Json :=
  (read? .all maxNesting text).or (read? o maxNesting text)

end TypedRecords.Json
