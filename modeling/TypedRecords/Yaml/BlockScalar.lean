import TypedRecords.Text.Digits
import TypedRecords.Yaml.Mark
/-!
# Block scalars

Scalars set out as indented lines. A literal one keeps its line ends, a folded one joins the lines that
do not begin with a blank.
-/

namespace TypedRecords.Yaml

/-- What becomes of the line ends behind the last line: none is kept, one, or all. -/
inductive Chomping where
  | strip
  | clip
  | keep
  deriving DecidableEq, Repr

def chompingOf? (c : Char) : Option Chomping :=
  match c with
  | '-' => some .strip
  | '+' => some .keep
  | _ => none

def indentationOf? (c : Char) : Option Nat :=
  if Text.isDigit c && c != '0' then some (Text.digitValue c) else none

/-- The chomping and the indentation, zero where it is left open, in either order, and what follows the
header's line. -/
def blockHeader? (ms : List Mark) : Option (Chomping × Nat × List Mark) :=
  let (chomping, indentation, rest) : Option Chomping × Option Nat × List Mark :=
    match ms with
    | [] => (none, none, [])
    | m :: rest =>
      match chompingOf? m.char, indentationOf? m.char with
      | some chomping, _ =>
        match rest with
        | n :: after =>
          match indentationOf? n.char with
          | some indentation => (some chomping, some indentation, after)
          | none => (some chomping, none, rest)
        | [] => (some chomping, none, [])
      | none, some indentation =>
        match rest with
        | n :: after =>
          match chompingOf? n.char with
          | some chomping => (some chomping, some indentation, after)
          | none => (none, some indentation, rest)
        | [] => (none, some indentation, [])
      | none, none => (none, none, m :: rest)
  (lineEnd? rest).map fun rest => (chomping.getD .clip, indentation.getD 0, rest)

/-- The line ends of empty lines, the widest indentation met, and what follows the indentation of the next
line. An `indent` of zero has no limit; a tab may not stand in the indentation. -/
def blockGap (indent widest : Nat) : List Mark → Option (List Char × Nat × List Mark)
  | [] => some ([], widest, [])
  | m :: ms =>
    let inside := indent == 0 || m.column < indent
    if inside && m.char == ' ' then blockGap indent widest ms
    else if inside && m.char == '\t' then none
    else if isBreak m.char then
      (blockGap indent (max widest m.column) ms).map fun (cs, w, r) => (m.char :: cs, w, r)
    else some ([], max widest m.column, m :: ms)

/-- What joins a line to the one before it, whose line end is `lineBreak` and which `breaks` follow. -/
def blockJoint (literal afterBlank beforeBlank : Bool) (lineBreak breaks : List Char) :
    List Char :=
  if !literal && lineBreak == ['\n'] && !afterBlank && !beforeBlank then
    if breaks.isEmpty then [' '] else breaks
  else lineBreak ++ breaks

def blockLines (literal : Bool) (indent fuel : Nat) (afterBlank : Bool)
    (lineBreak breaks : List Char) (ms : List Mark) :
    Option (List Char × List Char × List Char × List Mark) :=
  match fuel, ms with
  | fuel + 1, m :: _ =>
    if m.column = indent then
      let line := (ms.takeWhile fun m => !isBreak m.char).map (·.char)
      let after := ms.dropWhile fun m => !isBreak m.char
      match blockGap indent 0 (after.drop 1) with
      | none => none
      | some (breaks', _, rest) =>
        (blockLines literal indent fuel (isBlank m.char) ((after.take 1).map (·.char)) breaks' rest).map
          fun (cs, last) =>
            (blockJoint literal afterBlank (isBlank m.char) lineBreak breaks ++ line ++ cs, last)
    else some ([], lineBreak, breaks, ms)
  | _, _ => some ([], lineBreak, breaks, ms)

/-- The text of a block scalar inside a block whose content begins at the column `base`, and what follows
it. Where the header leaves the indentation open, the widest of the empty lines and the first line has
it. -/
def blockBody (literal : Bool) (base : Nat) (ms : List Mark) : Option (List Char × List Mark) := do
  let (chomping, indentation, rest) ← blockHeader? ms
  let given := if indentation = 0 then 0 else base - 1 + indentation
  let (breaks, widest, rest) ← blockGap given 0 rest
  let indent := if given = 0 then max widest (max base 1) else given
  let (cs, lineBreak, breaks, rest) ←
    blockLines literal indent (rest.length + 1) false [] breaks rest
  let tail := match chomping with
    | .strip => []
    | .clip => lineBreak
    | .keep => lineBreak ++ breaks
  return (cs ++ tail, rest)

end TypedRecords.Yaml
