/-!
# Characters of a YAML text

Lines and columns decide how a text is divided, so every character is kept with its place.
-/

namespace TypedRecords.Yaml

structure Mark where
  line : Nat
  column : Nat
  /-- The number of characters before it. -/
  index : Nat
  char : Char
  deriving DecidableEq, Repr

/-- Control characters other than the tab and the line ends make a text unreadable, as do the
noncharacters U+FFFE and U+FFFF. -/
def isAllowed (c : Char) : Bool :=
  let n := c.toNat
  n == 0x09 || n == 0x0A || n == 0x0D || (0x20 ≤ n && n ≤ 0x7E) || n == 0x85 ||
    (0xA0 ≤ n && n ≤ 0xFFFD) || 0x10000 ≤ n

def isBlank (c : Char) : Bool := c == ' ' || c == '\t'

def isBreak (c : Char) : Bool := c == '\n' || c == '\u2028' || c == '\u2029'

/-- The line ends that are read as a line feed. The two separators stay what they are. -/
def unifyBreaks : List Char → List Char
  | '\r' :: '\n' :: cs => '\n' :: unifyBreaks cs
  | '\r' :: cs => '\n' :: unifyBreaks cs
  | '\u0085' :: cs => '\n' :: unifyBreaks cs
  | c :: cs => c :: unifyBreaks cs
  | [] => []

def marks (line column index : Nat) : List Char → List Mark
  | [] => []
  | c :: cs =>
    ⟨line, column, index, c⟩ ::
      if isBreak c then marks (line + 1) 0 (index + 1) cs else marks line (column + 1) (index + 1) cs

def marksOf? (text : String) : Option (List Mark) :=
  let cs := text.toList
  if cs.all isAllowed then some (marks 0 0 0 (unifyBreaks cs)) else none

/-- A byte order mark at the beginning of a line. It has a column of its own, so that nothing behind it
stands at the beginning of the line. -/
def Mark.isOrderMark (m : Mark) : Bool := m.column == 0 && m.char == '\uFEFF'

def atBlank : List Mark → Bool
  | [] => true
  | m :: _ => isBlank m.char || isBreak m.char

def atBreak : List Mark → Bool
  | [] => true
  | m :: _ => isBreak m.char

def atChar (p : Char → Bool) : List Mark → Bool
  | [] => false
  | m :: _ => p m.char

def atMarker : List Mark → Bool
  | a :: b :: c :: rest =>
    a.column == 0 && (a.char == '-' || a.char == '.') && b.char == a.char && c.char == a.char &&
      atBlank rest
  | _ => false

def skipBlanks (ms : List Mark) : List Mark := ms.dropWhile fun m => isBlank m.char

/-- What follows the line, of which nothing but a comment may be left. -/
def lineEnd? (ms : List Mark) : Option (List Mark) :=
  let rest := skipBlanks ms
  let rest := if atChar (· == '#') rest then rest.dropWhile fun m => !isBreak m.char else rest
  if atBreak rest then some (rest.drop 1) else none

def isWordChar (c : Char) : Bool := c.isAlphanum || c == '-' || c == '_'

def spanWord (ms : List Mark) : List Char × List Mark :=
  ((ms.takeWhile fun m => isWordChar m.char).map (·.char), ms.dropWhile fun m => isWordChar m.char)

end TypedRecords.Yaml
