import StackBound.Zstandard.Failure

/-! Strings of bits inside a block of bytes. Tables are written forward, the low bit of each byte
first. All else is written backward: the reading starts after the highest bit set in the last byte. -/
namespace StackBound
namespace Zstandard

structure Forward where
  data : Array UInt8
  /-- How many bytes were taken or skipped. -/
  position : Nat
  /-- The bits that were taken and not used, the next one lowest. -/
  bits : Nat
  count : Nat

namespace Forward

def ofBytes (data : Array UInt8) (position : Nat) : Forward := ⟨data, position, 0, 0⟩

def fail (r : Forward) (cause : Cause) : Except Failure α := failAt r.position cause

def refillWithin : Nat → Forward → Except Failure Forward
  | 0, r => .ok r
  | allowed + 1, r =>
    if 16 ≤ r.count then .ok r
    else match r.data[r.position]? with
      | none => r.fail .cutOff
      | some b => refillWithin allowed
        { r with
          position := r.position + 1, bits := r.bits + b.toNat * Nat.pow 2 r.count, count := r.count + 8 }

def refill (r : Forward) : Except Failure Forward := r.refillWithin 2

def peek (r : Forward) (n : Nat) : Nat := r.bits % Nat.pow 2 n

def drop (r : Forward) (n : Nat) : Forward :=
  { r with bits := r.bits / Nat.pow 2 n, count := r.count - n }

def rest (r : Forward) : Nat := r.position - r.count / 8

end Forward

structure Backward where
  data : Array UInt8
  /-- The byte taken last. -/
  position : Nat
  /-- The byte at which the reading ends. -/
  start : Nat
  /-- The bits taken last, no more than thirty-two, the next one highest. -/
  bits : Nat
  /-- How many of them are not used. -/
  count : Nat

namespace Backward

def fail (r : Backward) (cause : Cause) : Except Failure α := failAt r.position cause

/-- Starts with the last byte, of which the highest bit set is a mark. -/
def ofLast (data : Array UInt8) (last start : Nat) : Except Failure Backward :=
  let b := (data.getD last 0).toNat
  if b = 0 then failAt last .zeroByte else .ok ⟨data, last, start, b, b.log2⟩

/-- Takes bytes until there are enough bits. Where the bytes do not suffice, all are taken. -/
def fetch (n : Nat) (r : Backward) : Except Backward Backward :=
  if n ≤ r.count then .ok r
  else if r.position ≤ r.start then .error r
  else
    let position := r.position - 1
    let bits := (r.bits * 256 + (r.data.getD position 0).toNat) % Nat.pow 2 32
    fetch n ⟨r.data, position, r.start, bits, r.count + 8⟩
termination_by n - r.count

def peek (r : Backward) (n : Nat) : Nat := r.bits / Nat.pow 2 (r.count - n) % Nat.pow 2 n

def drop (r : Backward) (n : Nat) : Backward := { r with count := r.count - n }

def take (r : Backward) (n : Nat) : Except Failure (Nat × Backward) :=
  match r.fetch n with
  | .error r => r.fail .cutOff
  | .ok r => .ok (r.peek n, r.drop n)

end Backward
end Zstandard
end StackBound
