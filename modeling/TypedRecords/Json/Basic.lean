/-!
# JSON values

A tree that keeps each number as the text it was written with and the members of an object in the
order they were written.
-/

namespace TypedRecords

inductive Json where
  | null
  | bool (b : Bool)
  | num (literal : String)
  | str (s : String)
  | arr (items : List Json)
  | obj (members : List (String × Json))
  deriving Repr, Inhabited

namespace Json

def member? (members : List (String × Json)) (key : String) : Option Json :=
  members.lookup key

/-- Gives `key` the value `v`: at its present position, or at the end if it is new. -/
def setMember (key : String) (v : Json) : List (String × Json) → List (String × Json)
  | [] => [(key, v)]
  | (k, w) :: rest => if k = key then (k, v) :: rest else (k, w) :: setMember key v rest

/-- Each key once, at its first position and with its last value. -/
def settleMembers (members : List (String × Json)) : List (String × Json) :=
  members.foldl (fun settled m => setMember m.1 m.2 settled) []

mutual

def settle : Json → Json
  | .arr items => .arr (settleAll items)
  | .obj members => .obj (settleMembers (settleValues members))
  | v => v

def settleAll : List Json → List Json
  | [] => []
  | v :: vs => v.settle :: settleAll vs

def settleValues : List (String × Json) → List (String × Json)
  | [] => []
  | (k, v) :: rest => (k, v.settle) :: settleValues rest

end

end Json

end TypedRecords
