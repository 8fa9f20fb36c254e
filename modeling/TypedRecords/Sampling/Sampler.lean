import TypedRecords.Options.Basic
import TypedRecords.Sampling.Keystream
/-!
# Sampling

Which records inference looks at: each is kept with the same probability, decided by its position and
the seed.
-/

namespace TypedRecords

-- Powers are the core library's, whatever else is in scope.
attribute [local instance (5000)] instPowNat

/-- The key and the bound below which a draw keeps a record; without them all records are kept. -/
structure Sampler where
  bound : Option (Sampling.Key × Nat)
  deriving DecidableEq, Repr

namespace Sampler

def boundOf (ratio : Double) : Nat := ratio.units * 2 ^ (64 : Nat) / 2 ^ Format.double.unitBits

def ofRatio (ratio : Double) (seed : UInt64) : Except Error Sampler :=
  if !Floating.zero.less ratio then .error (.samplingRatio ratio)
  else if ratio.atMost Options.samplingLimit then
    .ok ⟨some (Sampling.Key.ofSeed seed, boundOf ratio)⟩
  else .ok ⟨none⟩

def isSampling (s : Sampler) : Bool := s.bound.isSome

def keeps (s : Sampler) (position : Nat) : Bool :=
  match s.bound with
  | some (key, bound) => Sampling.draw key position < bound
  | none => true

def sample {α : Type} (s : Sampler) (xs : List α) : List α :=
  (xs.zipIdx.filter fun x => s.keeps x.2).map Prod.fst

end Sampler

end TypedRecords
