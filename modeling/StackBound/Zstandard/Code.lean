import StackBound.Zstandard.States

/-! Prefix codes for bytes, given by weights. A word is the shorter, the heavier its byte is; a byte
without weight has no word. The weight of the last byte is not written, since the code is complete. -/
namespace StackBound
namespace Zstandard

/-- For all bit strings as long as the longest word: the byte whose word it starts with, and the
length of that word. -/
structure Code where
  longest : Nat
  words : Array (UInt8 × Nat)

namespace Code

def longestAllowed : Nat := 11
def mostWeights : Nat := 255
def heaviest : Nat := 12

/-- Reads weights as symbols of two machines that take turns. When the bits run out, both machines
give the symbol they stand at. -/
def alternate (t : States) : Nat → Backward → Nat → Nat → List Nat → Except Failure (List Nat)
  | 0, r, _, _, _ => r.fail .weightCount
  | fuel + 1, r, index, other, found =>
    let state := t.get index
    match r.fetch state.bits with
    | .error r =>
      if mostWeights ≤ found.length + 1 then r.fail .weightCount
      else .ok (((t.get other).symbol :: state.symbol :: found).reverse)
    | .ok r =>
      let next := state.base + r.peek state.bits
      let r := r.drop state.bits
      if mostWeights ≤ found.length then r.fail .weightCount
      else alternate t fuel r other next (state.symbol :: found)

def packedWeights (data : Array UInt8) (offset size : Nat) : Except Failure (List Nat × Nat) := do
  let (t, start) ← States.read data offset 255 6
  if data.size < offset + size then failAt offset .cutOff
  else
    let r ← Backward.ofLast data (offset + size - 1) start
    let (first, r) ← r.take t.log
    let (second, r) ← r.take t.log
    return (← alternate t (mostWeights + 1) r first second [], offset + size)

def plainWeights (data : Array UInt8) (offset count : Nat) : Except Failure (List Nat × Nat) :=
  let size := (count + 1) / 2
  if data.size ≤ offset + size then .error .cutInWeights
  else
    let bytes := (data.extract offset (offset + size)).toList
    .ok ((bytes.flatMap fun b => [b.toNat / 16, b.toNat % 16]).take count, offset + size)

/-- The code with the given weights, to which the last is added. The shortest words come last. -/
def ofWeights (weights : List Nat) : Except Cause Code :=
  if weights.any (heaviest < ·) then .error .weightSize
  else
    let room (w : Nat) : Nat := if w = 0 then 0 else Nat.pow 2 (w - 1)
    let used := (weights.map room).foldl (· + ·) 0
    let longest := used.log2 + 1
    let left := Nat.pow 2 longest - used
    if used = 0 ∨ longestAllowed < longest ∨ left ≠ Nat.pow 2 left.log2 then .error .weights
    else if mostWeights < weights.length then .error .weightSize
    else
      let weights := weights ++ [left.log2 + 1]
      let lightest := weights.count 1
      if lightest < 2 ∨ lightest % 2 = 1 then .error .weights
      else
        let sizes := (List.range longest).map (· + 1)
        let words := sizes.flatMap fun w =>
          (weights.zipIdx.filter (·.1 = w)).flatMap fun (_, symbol) =>
            List.replicate (room w) (symbol.toUInt8, longest + 1 - w)
        .ok ⟨longest, words.toArray⟩

def read (data : Array UInt8) (offset : Nat) : Except Failure (Code × Nat) :=
  match data[offset]? with
  | none => failAt offset .cutOff
  | some header => do
    let (weights, offset) ←
      if header < 128 then packedWeights data (offset + 1) header.toNat
      else plainWeights data (offset + 1) (header.toNat - 127)
    match ofWeights weights with
    | .error cause => failAt offset cause
    | .ok code => return (code, offset)

/-- Reads as many bytes as wanted. A failure tells how many were read before it. -/
def decode (c : Code) : Nat → Backward → Bytes → Except (Nat × Failure) Bytes
  | 0, _, found => .ok found.reverse
  | wanted + 1, r, found =>
    match r.fetch c.longest with
    | .error r => .error (found.length, .located r.position .outOfBits)
    | .ok r =>
      let (b, length) := c.words.getD (r.peek c.longest) (0, 0)
      decode c wanted (r.drop length) (b :: found)

end Code
end Zstandard
end StackBound
