import TypedRecords.Yaml.BlockScalar
import TypedRecords.Yaml.FlowScalar
import TypedRecords.Yaml.Tag
/-!
# Tokens

A text is divided into tokens. The indentation of blocks becomes tokens that open and close them, and the
colon that makes a key of what stands before it puts a token in front of that.
-/

namespace TypedRecords.Yaml

inductive Style where
  | plain
  | quoted
  | literal
  | folded
  deriving DecidableEq, Repr

inductive Token where
  | directive (d : Directive)
  | documentStart
  | documentEnd
  | blockSequence
  | blockMapping
  | blockEnd
  | flowSequence
  | flowSequenceEnd
  | flowMapping
  | flowMappingEnd
  | item
  | comma
  | key
  | value
  | alias (name : String)
  | anchor (name : String)
  | tag (name : TagName)
  | scalar (style : Style) (text : String)
  deriving DecidableEq, Repr

/-- A place where a key may have begun: the number of tokens before it, and whether it has to be a key
because it stands in the column of a mapping. -/
structure Candidate where
  position : Nat
  mark : Mark
  required : Bool
  deriving DecidableEq, Repr

/-- A key stands on one line and is at most 1024 characters long. -/
def Candidate.isPast (k : Candidate) (m : Mark) : Bool :=
  k.mark.line < m.line || k.mark.index + 1024 < m.index

structure Scanner where
  rest : List Mark
  /-- Whether a key may begin here. -/
  keysAllowed : Bool := true
  /-- The columns of the open blocks, the innermost first. -/
  columns : List Nat := []
  /-- The candidate of the innermost collection. -/
  candidate : Option Candidate := none
  /-- The candidates around each open flow collection, the innermost first. -/
  outer : List (Option Candidate) := []
  /-- The tokens so far, the last first. -/
  tokens : List Token := []
  deriving Repr

/-- Passes over blanks, comments, line ends and the byte order marks in front of lines. Outside flow
collections a key may begin after a line end, and a tab may not stand where a key may begin. -/
def skipGap (flow keysAllowed comment : Bool) : List Mark → Bool × List Mark
  | [] => (keysAllowed, [])
  | m :: ms =>
    if isBreak m.char then skipGap flow (keysAllowed || !flow) false ms
    else if comment then skipGap flow keysAllowed true ms
    else if m.isOrderMark || m.char = ' ' || (m.char = '\t' && (flow || !keysAllowed)) then
      skipGap flow keysAllowed false ms
    else if m.char = '#' then skipGap flow keysAllowed true ms
    else (keysAllowed, m :: ms)

namespace Scanner

def inFlow (s : Scanner) : Bool := !s.outer.isEmpty

def base (s : Scanner) : Nat :=
  match s.columns with
  | [] => 0
  | c :: _ => c + 1

def emit (s : Scanner) (t : Token) : Scanner := { s with tokens := t :: s.tokens }

def insert (s : Scanner) (position : Nat) (t : Token) : Scanner :=
  let later := s.tokens.length - position
  { s with tokens := s.tokens.take later ++ t :: s.tokens.drop later }

def openBlock (s : Scanner) (column position : Nat) (t : Token) : Scanner :=
  if s.inFlow || column < s.base then s
  else { s with columns := column :: s.columns }.insert position t

def closeBlocks (s : Scanner) (bound : Nat) : Scanner :=
  if s.inFlow then s
  else
    let closed := (s.columns.takeWhile (bound ≤ ·)).length
    { s with
      columns := s.columns.drop closed
      tokens := List.replicate closed .blockEnd ++ s.tokens }

def dropCandidate (s : Scanner) : Option Scanner :=
  if s.candidate.any (·.required) then none else some { s with candidate := none }

def keepUntil (m : Mark) (k : Option Candidate) : Option (Option Candidate) :=
  match k with
  | some k => if k.isPast m then if k.required then none else some none else some (some k)
  | none => some none

def dropPast (s : Scanner) (m : Mark) : Option Scanner := do
  let candidate ← keepUntil m s.candidate
  let outer ← s.outer.mapM (keepUntil m)
  return { s with candidate, outer }

def mayBeKey (s : Scanner) (m : Mark) : Option Scanner :=
  if s.keysAllowed then
    s.dropCandidate.map fun s =>
      { s with candidate := some ⟨s.tokens.length, m, !s.inFlow && s.base == m.column + 1⟩ }
  else some s

def advance (s : Scanner) (rest : List Mark) (keysAllowed : Bool) : Scanner :=
  { s with rest, keysAllowed }

def readDirective (s : Scanner) (ms : List Mark) : Option Scanner := do
  let s ← (s.closeBlocks 0).dropCandidate
  let (d, rest) ← directive? ms
  return (s.emit (.directive d)).advance rest false

def readMarker (s : Scanner) (t : Token) (rest : List Mark) : Option Scanner := do
  let s ← (s.closeBlocks 0).dropCandidate
  return (s.emit t).advance rest false

def openFlow (s : Scanner) (m : Mark) (t : Token) (rest : List Mark) : Option Scanner := do
  let s ← s.mayBeKey m
  return { s with outer := s.candidate :: s.outer, candidate := none }.emit t |>.advance rest true

def closeFlow (s : Scanner) (t : Token) (rest : List Mark) : Option Scanner := do
  let s ← s.dropCandidate
  let s := match s.outer with
    | [] => s
    | k :: outer => { s with candidate := k, outer }
  return (s.emit t).advance rest false

def readComma (s : Scanner) (rest : List Mark) : Option Scanner := do
  let s ← s.dropCandidate
  return (s.emit .comma).advance rest true

def readItem (s : Scanner) (m : Mark) (rest : List Mark) : Option Scanner := do
  if !s.inFlow && !s.keysAllowed then none
  let s ← (s.openBlock m.column s.tokens.length .blockSequence).dropCandidate
  return (s.emit .item).advance rest true

def readKey (s : Scanner) (m : Mark) (rest : List Mark) : Option Scanner := do
  if !s.inFlow && !s.keysAllowed then none
  let s ← (s.openBlock m.column s.tokens.length .blockMapping).dropCandidate
  return (s.emit .key).advance rest !s.inFlow

/-- The colon in front of a value. The candidate before it becomes a key. -/
def readValue (s : Scanner) (m : Mark) (rest : List Mark) : Option Scanner :=
  match s.candidate with
  | some k =>
    let s := (s.insert k.position .key).openBlock k.mark.column k.position .blockMapping
    some (({ s with candidate := none }.emit .value).advance rest false)
  | none =>
    if !s.inFlow && !s.keysAllowed then none
    else
      let s := s.openBlock m.column s.tokens.length .blockMapping
      some ((s.emit .value).advance rest !s.inFlow)

def readName (s : Scanner) (m : Mark) (token : String → Token) (ms : List Mark) :
    Option Scanner := do
  let s ← s.mayBeKey m
  let (word, rest) := spanWord ms
  let ends := atBlank rest ||
    atChar (fun c => ['?', ':', ',', ']', '}', '%', '@', Char.ofNat 0x60].contains c) rest
  if word.isEmpty || !ends then none
  return (s.emit (token (String.ofList word))).advance rest false

def readTag (s : Scanner) (m : Mark) (ms : List Mark) : Option Scanner := do
  let s ← s.mayBeKey m
  let (name, rest) ← tag? s.inFlow ms
  return (s.emit (.tag name)).advance rest false

def readBlockScalar (s : Scanner) (style : Style) (ms : List Mark) : Option Scanner := do
  let s ← s.dropCandidate
  let (cs, rest) ← blockBody (style == .literal) s.base ms
  return (s.emit (.scalar style (String.ofList cs))).advance rest true

def readQuoted (s : Scanner) (m : Mark) (ms : List Mark) : Option Scanner := do
  let s ← s.mayBeKey m
  let (cs, rest) ← if m.char = '"' then doubleBody .empty ms else singleBody .empty ms
  return (s.emit (.scalar .quoted (String.ofList cs))).advance rest false

/-- After a plain scalar a key may begin only behind a line end. -/
def readPlain (s : Scanner) (m : Mark) (ms : List Mark) : Option Scanner := do
  let s ← s.mayBeKey m
  let (cs, lines, rest) ← plainBody s.inFlow s.base .empty (m :: ms)
  return (s.emit (.scalar .plain (String.ofList cs))).advance rest lines

def readToken (s : Scanner) (m : Mark) (ms : List Mark) : Option Scanner :=
  if m.column = 0 && m.char = '%' then s.readDirective ms
  else if atMarker (m :: ms) then
    s.readMarker (if m.char = '-' then .documentStart else .documentEnd) (ms.drop 2)
  else match m.char with
    | '[' => s.openFlow m .flowSequence ms
    | '{' => s.openFlow m .flowMapping ms
    | ']' => s.closeFlow .flowSequenceEnd ms
    | '}' => s.closeFlow .flowMappingEnd ms
    | ',' => s.readComma ms
    | '*' => s.readName m .alias ms
    | '&' => s.readName m .anchor ms
    | '!' => s.readTag m ms
    | '\'' => s.readQuoted m ms
    | '"' => s.readQuoted m ms
    | c =>
      if c = '-' && atBlank ms then s.readItem m ms
      else if c = '?' && (s.inFlow || atBlank ms) then s.readKey m ms
      else if c = ':' && (s.inFlow || atBlank ms) then s.readValue m ms
      else if c = '|' && !s.inFlow then s.readBlockScalar .literal ms
      else if c = '>' && !s.inFlow then s.readBlockScalar .folded ms
      else if startsPlain s.inFlow (m :: ms) then s.readPlain m ms
      else none

/-- The tokens of the rest. Every token takes at least one character. -/
def run (fuel : Nat) (s : Scanner) : Option (List Token) :=
  match fuel with
  | 0 => none
  | fuel + 1 =>
    let (keysAllowed, rest) := skipGap s.inFlow s.keysAllowed false s.rest
    let s := s.advance rest keysAllowed
    match rest with
    | [] => (s.closeBlocks 0).dropCandidate.map fun s => s.tokens.reverse
    | m :: ms => do
      let s ← s.dropPast m
      let s ← (s.closeBlocks (m.column + 1)).readToken m ms
      run fuel s

end Scanner

def tokens? (text : String) : Option (List Token) :=
  (marksOf? text).bind fun ms => Scanner.run (ms.length + 1) { rest := ms }

end TypedRecords.Yaml
