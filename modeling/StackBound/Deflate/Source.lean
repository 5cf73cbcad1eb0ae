import StackBound.Text.Bytes

/-! A string of bytes read bit by bit, the low bit of each byte first. Bytes are taken only when their
bits are asked for. -/
namespace StackBound
namespace Deflate

inductive Failure
  | truncated
  /-- With the number of bytes taken until then. -/
  | corrupt (offset : Nat)
  deriving DecidableEq, Repr

structure Source where
  bytes : Array UInt8
  /-- How many bytes were taken. -/
  position : Nat
  /-- The bits that were taken and not used, the next one lowest. -/
  bits : Nat
  /-- How many they are. -/
  count : Nat

namespace Source

def ofBytes (bytes : Bytes) : Source := ⟨bytes.toArray, 0, 0, 0⟩

def corrupt (s : Source) : Except Failure α := .error (.corrupt s.position)

def more (s : Source) : Except Failure Source :=
  match s.bytes[s.position]? with
  | none => .error .truncated
  | some b => .ok
    { s with
      position := s.position + 1, bits := s.bits + b.toNat * Nat.pow 2 s.count, count := s.count + 8 }

/-- Takes bytes until there are enough bits, or as many bytes as allowed. -/
def fill (n : Nat) : Nat → Source → Except Failure Source
  | 0, s => .ok s
  | allowed + 1, s => if n ≤ s.count then .ok s else s.more.bind (fill n allowed)

def need (s : Source) (n : Nat) : Except Failure Source := s.fill n n

def drop (s : Source) (n : Nat) : Source :=
  { s with bits := s.bits / Nat.pow 2 n, count := s.count - n }

def take (s : Source) (n : Nat) : Except Failure (Nat × Source) :=
  (s.need n).map fun s => (s.bits % Nat.pow 2 n, s.drop n)

/-- Forgets the bits of a byte that was begun. -/
def aligned (s : Source) : Source := { s with bits := 0, count := 0 }

/-- The next bytes, all if there are fewer, and what follows them. -/
def takeBytes (s : Source) (n : Nat) : Bytes × Source :=
  let found := s.bytes.extract s.position (s.position + n)
  (found.toList, { s with position := s.position + found.size })

end Source
end Deflate
end StackBound
