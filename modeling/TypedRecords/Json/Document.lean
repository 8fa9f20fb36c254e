import TypedRecords.Json.Basic
import TypedRecords.Text.Digits
/-!
# Documents

A document with declared entries is an object, whose other keys are ignored, or an array that lists
the entries in their declared order and may end early.
-/

namespace TypedRecords.Json

/-- The entries that are present, by name. None if a declared key repeats, if the array is too long, or
if the document is neither object nor array. -/
def entries? (names : List String) : Json → Option (List (String × Json))
  | .obj members =>
    let present := members.filter fun m => names.contains m.1
    if (present.map Prod.fst).Nodup then some present else none
  | .arr items => if items.length ≤ names.length then some (names.zip items) else none
  | _ => none

def bool? : Json → Option Bool
  | .bool b => some b
  | _ => none

def string? : Json → Option String
  | .str s => some s
  | _ => none

def natUpTo? (bound : Nat) : Json → Option Nat
  | .num literal =>
    (Text.natOfDigits? literal.toList).bind fun n => if n ≤ bound then some n else none
  | _ => none

def entryOr {α : Type} (entries : List (String × Json)) (name : String) (default : α)
    (read : Json → Option α) : Option α :=
  match member? entries name with
  | none => some default
  | some v => read v

def entry? {α : Type} (entries : List (String × Json)) (name : String)
    (read : Json → Option α) : Option α :=
  (member? entries name).bind read

mutual

def depth : Json → Nat
  | .arr items => itemsDepth items + 1
  | .obj members => membersDepth members + 1
  | _ => 0

def itemsDepth : List Json → Nat
  | [] => 0
  | v :: vs => max v.depth (itemsDepth vs)

def membersDepth : List (String × Json) → Nat
  | [] => 0
  | (_, v) :: rest => max v.depth (membersDepth rest)

end

end TypedRecords.Json
