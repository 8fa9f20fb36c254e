/-!
# Outlines

What is read of a text. The rest of it only has to follow the grammar: it may nest as deep as it likes, and its
strings may hold halves of surrogate pairs.
-/

namespace TypedRecords.Json

inductive Outline where
  | all
  | nothing
  /-- The items of an array. -/
  | items (each : Outline)
  /-- The members with these names, or the items of an array that lists their values in this order. -/
  | entries (known : List (String × Outline))
  deriving Repr, Inhabited

namespace Outline

def head : Outline → Outline
  | .items each => each
  | .entries [] => .all
  | .entries (entry :: _) => entry.2
  | o => o

def tail : Outline → Outline
  | .entries (_ :: known) => .entries known
  | o => o

def member (key : String) : Outline → Outline
  | .nothing => .nothing
  | .entries known => (known.lookup key).getD .nothing
  | _ => .all

/-- The levels of nesting allowed inside a value. What is not read has no limit. -/
def room (depth : Nat) : Outline → Nat
  | .nothing => depth + 1
  | _ => depth

end Outline

end TypedRecords.Json
