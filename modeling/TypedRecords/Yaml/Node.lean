import TypedRecords.Yaml.Token
/-!
# Nodes

The tree that a document describes, and what its aliases stand for.
-/

namespace TypedRecords.Yaml

structure Scalar where
  style : Style
  tag : Option String
  text : String
  deriving DecidableEq, Repr

/-- An alias is known by the number of the anchor it names. -/
inductive Node where
  | scalar (s : Scalar)
  | sequence (items : List Node)
  | mapping (entries : List (Node × Node))
  | alias (number : Nat)
  deriving Repr, Inhabited

def Node.nothing : Node := .scalar ⟨.plain, none, ""⟩

/-- The numbers of the anchors' names, and the numbered nodes, the last first; none for a collection. -/
structure Anchors where
  numbers : List (String × Nat) := []
  nodes : List (Nat × Option Scalar) := []
  deriving DecidableEq, Repr

namespace Anchors

/-- An anchor's number is how many names were in use before it, its own included if it is used again. So a
new name can take a number over. -/
def define (a : Anchors) (name : String) (s : Option Scalar) : Anchors :=
  let number := a.numbers.length
  ⟨(name, number) :: a.numbers.filter (·.1 != name), (number, s) :: a.nodes⟩

def number? (a : Anchors) (name : String) : Option Nat := a.numbers.lookup name

def scalar? (a : Anchors) (number : Nat) : Option Scalar := (a.nodes.lookup number).join

end Anchors

/-- A text without any content has no root. -/
structure Document where
  root : Option Node
  anchors : Anchors
  deriving Repr

namespace Document

def scalar? (d : Document) : Node → Option Scalar
  | .scalar s => some s
  | .alias number => d.anchors.scalar? number
  | _ => none

/-- The entries of the root whose keys are among `names`, each with its scalar unless its value is a
collection. None if the root is neither a mapping nor empty, if any key is a collection, or if one of the
names repeats. -/
def entries? (d : Document) (names : List String) :
    Option (List (String × Option Scalar)) :=
  match d.root with
  | none => some []
  | some (.scalar s) => if s.style = .plain && s.text.isEmpty then some [] else none
  | some (.mapping entries) => do
    let keyed ← entries.mapM fun e => (d.scalar? e.1).map fun key => (key.text, d.scalar? e.2)
    let present := keyed.filter fun e => names.contains e.1
    if (present.map Prod.fst).Nodup then some present else none
  | some _ => none

end Document

end TypedRecords.Yaml
