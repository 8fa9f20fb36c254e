/-!
# Keystream

ChaCha with 12 rounds under a key that is spread from a 64-bit seed. Draws are read by their position,
so the stream has no state.
-/

namespace TypedRecords.Sampling

-- Powers are the core library's, whatever else is in scope.
attribute [local instance (5000)] instPowNat

structure Quad where
  a : UInt32
  b : UInt32
  c : UInt32
  d : UInt32
  deriving DecidableEq, Repr

namespace Quad

def map2 (f : UInt32 → UInt32 → UInt32) (x y : Quad) : Quad :=
  ⟨f x.a y.a, f x.b y.b, f x.c y.c, f x.d y.d⟩

def add : Quad → Quad → Quad := map2 (· + ·)

def xor : Quad → Quad → Quad := map2 (· ^^^ ·)

def rotateBits (n : UInt32) (x : Quad) : Quad :=
  let turn := fun w : UInt32 => (w <<< n) ||| (w >>> (32 - n))
  ⟨turn x.a, turn x.b, turn x.c, turn x.d⟩

def shift (x : Quad) : Quad := ⟨x.b, x.c, x.d, x.a⟩

def words (x : Quad) : List UInt32 := [x.a, x.b, x.c, x.d]

end Quad

structure State where
  r0 : Quad
  r1 : Quad
  r2 : Quad
  r3 : Quad
  deriving DecidableEq, Repr

namespace State

def columns (s : State) : State :=
  let r0 := s.r0.add s.r1
  let r3 := (s.r3.xor r0).rotateBits 16
  let r2 := s.r2.add r3
  let r1 := (s.r1.xor r2).rotateBits 12
  let r0 := r0.add r1
  let r3 := (r3.xor r0).rotateBits 8
  let r2 := r2.add r3
  ⟨r0, (r1.xor r2).rotateBits 7, r2, r3⟩

def skew (s : State) : State := ⟨s.r0, s.r1.shift, s.r2.shift.shift, s.r3.shift.shift.shift⟩

def unskew (s : State) : State := ⟨s.r0, s.r1.shift.shift.shift, s.r2.shift.shift, s.r3.shift⟩

def doubleRound (s : State) : State := s.columns.skew.columns.unskew

def rounds : Nat → State → State
  | 0, s => s
  | n + 1, s => rounds n s.doubleRound

def add (s t : State) : State := ⟨s.r0.add t.r0, s.r1.add t.r1, s.r2.add t.r2, s.r3.add t.r3⟩

def words (s : State) : List UInt32 := s.r0.words ++ s.r1.words ++ s.r2.words ++ s.r3.words

end State

structure Key where
  first : Quad
  second : Quad
  deriving DecidableEq, Repr

/-- The step of the generator that spreads a seed. -/
def spread (state : UInt64) : UInt64 := state * 6364136223846793005 + 11634580027462260723

def spreadWord (state : UInt64) : UInt32 :=
  let x := (((state >>> 18) ^^^ state) >>> 27).toUInt32
  let turn := (state >>> 59).toUInt32
  (x >>> turn) ||| (x <<< ((32 - turn) % 32))

def spreadStates : Nat → UInt64 → List UInt64
  | 0, _ => []
  | n + 1, s => spread s :: spreadStates n (spread s)

def Key.ofSeed (seed : UInt64) : Key :=
  match (spreadStates 8 seed).map spreadWord with
  | [a, b, c, d, e, f, g, h] => ⟨⟨a, b, c, d⟩, ⟨e, f, g, h⟩⟩
  | _ => ⟨⟨0, 0, 0, 0⟩, ⟨0, 0, 0, 0⟩⟩

def block (key : Key) (counter : Nat) : List UInt32 :=
  let start : State := ⟨⟨0x61707865, 0x3320646e, 0x79622d32, 0x6b206574⟩, key.first, key.second,
    ⟨UInt32.ofNat counter, UInt32.ofNat (counter / 2 ^ (32 : Nat)), 0, 0⟩⟩
  ((State.rounds 6 start).add start).words

/-- The `i`-th number below `2 ^ 64`: two words, the low one first. -/
def draw (key : Key) (i : Nat) : Nat :=
  match (block key (i / 8)).drop (i % 8 * 2) with
  | low :: high :: _ => low.toNat + high.toNat * 2 ^ (32 : Nat)
  | _ => 0

end TypedRecords.Sampling
