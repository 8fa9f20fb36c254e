/-!
# Base64

The standard alphabet with canonical padding: the text closes its last group of four, padding is at
most two characters at the end, and the bits that the padding stands for are zero.
-/

namespace TypedRecords.Text.Base64

inductive Fault where
  | symbol (byte : UInt8) (offset : Nat)
  | length (count : Nat)
  | lastSymbol (byte : UInt8) (offset : Nat)
  | padding
  deriving DecidableEq, Repr

def Fault.message : Fault → String
  | .symbol byte offset => s!"Invalid symbol {byte.toNat}, offset {offset}."
  | .length count => s!"Invalid input length: {count}"
  | .lastSymbol byte offset => s!"Invalid last symbol {byte.toNat}, offset {offset}."
  | .padding => "Invalid padding"

def symbolOf (v : Nat) : UInt8 :=
  if v < 26 then UInt8.ofNat (v + 65)
  else if v < 52 then UInt8.ofNat (v + 71)
  else if v < 62 then UInt8.ofNat (v - 4)
  else if v = 62 then 43
  else 47

def valueOf? (b : UInt8) : Option Nat :=
  let n := b.toNat
  if 65 ≤ n ∧ n ≤ 90 then some (n - 65)
  else if 97 ≤ n ∧ n ≤ 122 then some (n - 71)
  else if 48 ≤ n ∧ n ≤ 57 then some (n + 4)
  else if n = 43 then some 62
  else if n = 47 then some 63
  else none

def pad : UInt8 := 61

/-- Three bytes become four symbols; one or two bytes left over are padded. -/
def encode : List UInt8 → List UInt8
  | a :: b :: c :: rest =>
    symbolOf (a.toNat / 4) :: symbolOf (a.toNat % 4 * 16 + b.toNat / 16) ::
      symbolOf (b.toNat % 16 * 4 + c.toNat / 64) :: symbolOf (c.toNat % 64) :: encode rest
  | [a, b] =>
    [symbolOf (a.toNat / 4), symbolOf (a.toNat % 4 * 16 + b.toNat / 16),
      symbolOf (b.toNat % 16 * 4), pad]
  | [a] => [symbolOf (a.toNat / 4), symbolOf (a.toNat % 4 * 16), pad, pad]
  | [] => []

/-- The values in the last group and the number of padding characters after them. -/
def scanLast (start : Nat) (symbols : List Nat) (padding : Nat) :
    List UInt8 → Except Fault (List Nat × Nat)
  | [] => .ok (symbols, padding)
  | b :: bs =>
    if b = pad then
      if symbols.length + padding < 2 then
        .error (.symbol b (start + symbols.length + padding))
      else scanLast start symbols (padding + 1) bs
    else if padding ≠ 0 then .error (.symbol pad (start + symbols.length))
    else match valueOf? b with
      | none => .error (.symbol b (start + symbols.length))
      | some v => scanLast start (symbols ++ [v]) 0 bs

def decodeLast (start : Nat) (group : List UInt8) : Except Fault (List UInt8) := do
  let (symbols, padding) ← scanLast start [] 0 group
  if symbols.length < 2 then .error (.length (start + symbols.length))
  else if (symbols.length + padding) % 4 ≠ 0 then .error .padding
  else match symbols with
    | [a, b] =>
      if b % 16 ≠ 0 then .error (.lastSymbol (symbolOf b) (start + 1))
      else .ok [UInt8.ofNat (a * 4 + b / 16)]
    | [a, b, c] =>
      if c % 4 ≠ 0 then .error (.lastSymbol (symbolOf c) (start + 2))
      else .ok [UInt8.ofNat (a * 4 + b / 16), UInt8.ofNat (b * 16 + c / 4)]
    | [a, b, c, d] =>
      .ok [UInt8.ofNat (a * 4 + b / 16), UInt8.ofNat (b * 16 + c / 4), UInt8.ofNat (c * 64 + d)]
    | _ => .error .padding

def symbolAt (b : UInt8) (offset : Nat) : Except Fault Nat :=
  match valueOf? b with
  | some v => .ok v
  | none => .error (.symbol b offset)

/-- Groups of four from `start` on. Every group but the last holds four symbols. -/
def decodeFrom (start : Nat) : List UInt8 → Except Fault (List UInt8)
  | a :: b :: c :: d :: e :: rest => do
    let va ← symbolAt a start
    let vb ← symbolAt b (start + 1)
    let vc ← symbolAt c (start + 2)
    let vd ← symbolAt d (start + 3)
    let bytes ← decodeFrom (start + 4) (e :: rest)
    return UInt8.ofNat (va * 4 + vb / 16) :: UInt8.ofNat (vb * 16 + vc / 4) ::
      UInt8.ofNat (vc * 64 + vd) :: bytes
  | group => decodeLast start group

/-- A foreign byte that stands alone after the last full group is reported before any other. -/
def decode (bytes : List UInt8) : Except Fault (List UInt8) :=
  match bytes.getLast? with
  | none => .ok []
  | some last =>
    if bytes.length % 4 = 1 ∧ last ≠ pad ∧ valueOf? last = none then
      .error (.symbol last (bytes.length - 1))
    else decodeFrom 0 bytes

theorem value_of_symbol_of : ∀ v < 64, valueOf? (symbolOf v) = some v := by decide

end TypedRecords.Text.Base64
