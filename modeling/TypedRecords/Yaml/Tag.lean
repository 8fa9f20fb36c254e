import TypedRecords.Text.Digits
import TypedRecords.Yaml.Mark
/-!
# Tags and directives

A tag is a handle, which a directive may define, and the rest of a name.
-/

namespace TypedRecords.Yaml

structure TagName where
  /-- Empty for a name that stands for itself. -/
  handle : String
  rest : String
  deriving DecidableEq, Repr

inductive Directive where
  | version (major minor : Nat)
  | tag (handle stem : String)
  deriving DecidableEq, Repr

/-- The signs of names, besides letters and digits; `flow` adds those of flow collections. -/
def isNameSign (flow : Bool) (c : Char) : Bool :=
  [';', '/', '?', ':', '@', '&', '=', '+', '$', '.', '!', '~', '*', '\'', '(', ')'].contains c ||
    (flow && [',', '[', ']'].contains c)

def followers? (octet : Nat) : Option Nat :=
  if octet < 0x80 then some 0
  else if octet < 0xC0 then none
  else if octet < 0xE0 then some 1
  else if octet < 0xF0 then some 2
  else if octet < 0xF8 then some 3
  else none

/-- The signs of a name, escaped octets decoded one by one. `due` octets of a character are still to
come. -/
def nameSigns (flow : Bool) (due : Nat) : List Mark → Option (List Char × List Mark)
  | [] => if due = 0 then some ([], []) else none
  | m :: ms =>
    if m.char = '%' then
      match ms with
      | a :: b :: rest =>
        match Text.hexValue? a.char, Text.hexValue? b.char with
        | some high, some low =>
          let octet := 16 * high + low
          let next := if due = 0 then followers? octet
            else if octet / 0x40 = 2 then some (due - 1) else none
          match next with
          | some next => (nameSigns flow next rest).map fun (cs, r) => (Char.ofNat octet :: cs, r)
          | none => none
        | _, _ => none
      | _ => none
    else if due ≠ 0 then none
    else if isWordChar m.char || isNameSign flow m.char then
      (nameSigns flow 0 ms).map fun (cs, r) => (m.char :: cs, r)
    else some ([], m :: ms)

/-- A name ends at the character U+0000. -/
def nameText (cs : List Char) : String := String.ofList (cs.takeWhile (· != Char.ofNat 0))

def someName? (flow : Bool) (ms : List Mark) : Option (String × List Mark) :=
  match nameSigns flow 0 ms with
  | some (c :: cs, rest) => some (nameText (c :: cs), rest)
  | _ => none

/-- The tag behind an exclamation mark: `<name>`, `handle!rest`, `rest` under the handle `!`, or nothing,
which is the tag `!`. -/
def tagName? (ms : List Mark) : Option (TagName × List Mark) :=
  if atChar (· == '<') ms then
    match someName? true (ms.drop 1) with
    | some (name, rest) =>
      if atChar (· == '>') rest then some (⟨"", name⟩, rest.drop 1) else none
    | none => none
  else
    let (word, after) := spanWord ms
    if atChar (· == '!') after then
      (someName? false (after.drop 1)).map fun (name, rest) =>
        (⟨String.ofList ('!' :: (word ++ ['!'])), name⟩, rest)
    else
      (nameSigns false 0 after).map fun (cs, rest) =>
        let name := nameText (word ++ cs)
        (if name.isEmpty then ⟨"", "!"⟩ else ⟨"!", name⟩, rest)

/-- A tag is followed by a blank, or in a flow collection by a comma. -/
def tag? (flow : Bool) (ms : List Mark) : Option (TagName × List Mark) :=
  match tagName? ms with
  | some (tag, rest) =>
    if atBlank rest || (flow && atChar (· == ',') rest) then some (tag, rest) else none
  | none => none

def versionPart? (ms : List Mark) : Option (Nat × List Mark) :=
  let digits := (ms.takeWhile fun m => Text.isDigit m.char).map (·.char)
  if digits.length ≤ 9 then
    (Text.natOfDigits? digits).map fun n => (n, ms.drop digits.length)
  else none

def version? (ms : List Mark) : Option (Directive × List Mark) := do
  let (major, rest) ← versionPart? (skipBlanks ms)
  if !atChar (· == '.') rest then none
  let (minor, rest) ← versionPart? (rest.drop 1)
  return (.version major minor, rest)

/-- The handle that a directive defines: an exclamation mark, or a word between two. -/
def handle? (ms : List Mark) : Option (String × List Mark) :=
  if atChar (· == '!') ms then
    let (word, after) := spanWord (ms.drop 1)
    if atChar (· == '!') after then
      some (String.ofList ('!' :: (word ++ ['!'])), after.drop 1)
    else if word.isEmpty then some ("!", after)
    else none
  else none

def tagDirective? (ms : List Mark) : Option (Directive × List Mark) := do
  let (handle, rest) ← handle? (skipBlanks ms)
  if !atChar isBlank rest then none
  let (stem, rest) ← someName? true (skipBlanks rest)
  if !atBlank rest then none
  return (.tag handle stem, rest)

def directive? (ms : List Mark) : Option (Directive × List Mark) := do
  let (word, rest) := spanWord ms
  if !atBlank rest then none
  let (directive, rest) ←
    if word = "YAML".toList then version? rest
    else if word = "TAG".toList then tagDirective? rest
    else none
  (lineEnd? rest).map (directive, ·)

end TypedRecords.Yaml
