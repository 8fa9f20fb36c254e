import TypedRecords.Text.Digits
import TypedRecords.Yaml.Mark
/-!
# Plain and quoted scalars

Scalars that may run over several lines, whose line ends are folded: a single one becomes a space, and
of several all but the first are kept.
-/

namespace TypedRecords.Yaml

/-- What lies between two characters of a scalar: blanks on one line, or line ends. The first line end is
missing where it was escaped. -/
inductive Gap where
  | blanks (cs : List Char)
  | lines (first : Option Char) (more : List Char)
  deriving DecidableEq, Repr

namespace Gap

def empty : Gap := .blanks []

def isEmpty : Gap → Bool
  | .blanks [] => true
  | _ => false

def isLines : Gap → Bool
  | .lines _ _ => true
  | _ => false

def addBlank (c : Char) : Gap → Gap
  | .blanks cs => .blanks (cs ++ [c])
  | g => g

def addBreak (c : Char) : Gap → Gap
  | .blanks _ => .lines (some c) []
  | .lines first more => .lines first (more ++ [c])

def text : Gap → List Char
  | .blanks cs => cs
  | .lines (some '\n') [] => [' ']
  | .lines (some '\n') more => more
  | .lines first more => first.toList ++ more

end Gap

def isFlowChar (c : Char) : Bool := [',', '[', ']', '{', '}'].contains c

def isIndicator (c : Char) : Bool :=
  isFlowChar c ||
    ['-', '?', ':', '#', '&', '*', '!', '|', '>', '\'', '"', '%', '@', Char.ofNat 0x60].contains c

/-- Whether a plain scalar begins here. A hyphen may begin one, and outside flow collections a question
mark and a colon, where no blank follows. -/
def startsPlain (flow : Bool) : List Mark → Bool
  | [] => false
  | m :: ms =>
    !(isBlank m.char || isBreak m.char || isIndicator m.char) ||
      (m.char == '-' && !atChar isBlank ms) ||
      (!flow && (m.char == '?' || m.char == ':') && !atBlank ms)

/-- Whether a plain scalar ends in front of these characters, which begin with neither a blank nor a line
end. Lines after the first have to reach the column `indent` outside flow collections. -/
def endsPlain (flow : Bool) (indent : Nat) (gap : Gap) : List Mark → Bool
  | [] => true
  | m :: ms =>
    (gap.isLines && ((!flow && m.column < indent) || atMarker (m :: ms))) ||
      (m.char == '#' && !gap.isEmpty) || (m.char == ':' && atBlank ms) ||
      (flow && isFlowChar m.char)

/-- The text of a plain scalar, whether line ends follow it, and what comes then. In a flow collection a
colon may not stand in front of one of its signs. -/
def plainBody (flow : Bool) (indent : Nat) (gap : Gap) :
    List Mark → Option (List Char × Bool × List Mark)
  | [] => some ([], gap.isLines, [])
  | m :: ms =>
    if isBlank m.char then
      if gap.isLines && m.char == '\t' && m.column < indent then none
      else plainBody flow indent (gap.addBlank m.char) ms
    else if isBreak m.char then plainBody flow indent (gap.addBreak m.char) ms
    else if endsPlain flow indent gap (m :: ms) then some ([], gap.isLines, m :: ms)
    else if flow && m.char == ':' && atChar (fun c => isFlowChar c || c == '?') ms then none
    else
      (plainBody flow indent .empty ms).map fun (cs, lines, r) => (gap.text ++ m.char :: cs, lines, r)

/-- The text of a single quoted scalar up to its closing quote. A quote in it is written twice. -/
def singleBody (gap : Gap) : List Mark → Option (List Char × List Mark)
  | [] => none
  | m :: ms =>
    if isBlank m.char then singleBody (gap.addBlank m.char) ms
    else if isBreak m.char then singleBody (gap.addBreak m.char) ms
    else if atMarker (m :: ms) then none
    else if m.char = '\'' then
      match ms with
      | [] => some (gap.text, [])
      | n :: rest =>
        if n.char = '\'' then
          (singleBody .empty rest).map fun (cs, r) => (gap.text ++ '\'' :: cs, r)
        else some (gap.text, n :: rest)
    else (singleBody .empty ms).map fun (cs, r) => (gap.text ++ m.char :: cs, r)

def escapeOf? (c : Char) : Option Char :=
  match c with
  | '0' => some (Char.ofNat 0)
  | 'a' => some (Char.ofNat 7)
  | 'b' => some (Char.ofNat 8)
  | 't' => some '\t'
  | '\t' => some '\t'
  | 'n' => some '\n'
  | 'v' => some (Char.ofNat 11)
  | 'f' => some (Char.ofNat 12)
  | 'r' => some '\r'
  | 'e' => some (Char.ofNat 27)
  | ' ' => some ' '
  | '"' => some '"'
  | '/' => some '/'
  | '\\' => some '\\'
  | 'N' => some '\u0085'
  | '_' => some '\u00A0'
  | 'L' => some '\u2028'
  | 'P' => some '\u2029'
  | _ => none

def escapeWidth? (c : Char) : Option Nat :=
  match c with
  | 'x' => some 2
  | 'u' => some 4
  | 'U' => some 8
  | _ => none

def isScalarValue (n : Nat) : Bool := n < 0xD800 || (0xDFFF < n && n < 0x110000)

def codePoint? (width : Nat) (ms : List Mark) : Option Char := do
  let digits ← (ms.take width).mapM fun m => Text.hexValue? m.char
  let n := digits.foldl (fun n d => 16 * n + d) 0
  if digits.length = width && isScalarValue n then some (Char.ofNat n) else none

def doubleBody (gap : Gap) (ms : List Mark) : Option (List Char × List Mark) :=
  match ms with
  | [] => none
  | m :: ms =>
    if isBlank m.char then doubleBody (gap.addBlank m.char) ms
    else if isBreak m.char then doubleBody (gap.addBreak m.char) ms
    else if atMarker (m :: ms) then none
    else if m.char = '"' then some (gap.text, ms)
    else if m.char = '\\' then
      match ms with
      | [] => none
      | e :: rest =>
        if isBreak e.char then
          (doubleBody (.lines none []) rest).map fun (cs, r) => (gap.text ++ cs, r)
        else match escapeWidth? e.char, escapeOf? e.char with
          | some width, _ =>
            match codePoint? width rest with
            | some c =>
              (doubleBody .empty (rest.drop width)).map fun (cs, r) => (gap.text ++ c :: cs, r)
            | none => none
          | none, some c =>
            (doubleBody .empty rest).map fun (cs, r) => (gap.text ++ c :: cs, r)
          | none, none => none
    else (doubleBody .empty ms).map fun (cs, r) => (gap.text ++ m.char :: cs, r)
termination_by ms.length
decreasing_by all_goals simp only [List.length_cons, List.length_drop]; omega

end TypedRecords.Yaml
