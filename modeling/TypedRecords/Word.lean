/-!
# Machine integer ranges
-/

namespace TypedRecords

-- Powers are the core library's, whatever else is in scope.
attribute [local instance (5000)] instPowNat

/-- The range of a signed word of `bits` bits. -/
def Fits (bits : Nat) (z : Int) : Prop := -(2 ^ (bits - 1) : Int) ≤ z ∧ z < 2 ^ (bits - 1)

instance (bits : Nat) (z : Int) : Decidable (Fits bits z) :=
  inferInstanceAs (Decidable (_ ∧ _))

def fitting? (bits : Nat) (z : Int) : Option Int := if Fits bits z then some z else none

/-- Why a computation in words has no result. -/
inductive WordFault where
  | refused
  /-- A step that is not checked left its word. -/
  | wrapped (bits : Nat)
  deriving DecidableEq, Repr

namespace Words

def given {α : Type} : Option α → Except WordFault α
  | some a => .ok a
  | none => .error .refused

def checked (bits : Nat) (z : Int) : Except WordFault Int := if Fits bits z then .ok z else .error .refused

def unchecked (bits : Nat) (z : Int) : Except WordFault Int := if Fits bits z then .ok z else .error (.wrapped bits)

def uncheckedUnsigned (bits : Nat) (n : Nat) : Except WordFault Nat :=
  if n < 2 ^ bits then .ok n else .error (.wrapped bits)

end Words

end TypedRecords
