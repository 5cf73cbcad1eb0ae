import StackBound.Digest.XxHash64
import StackBound.Zstandard.Sequences

/-! Packed streams. A stream is a row of frames; a frame is a header, blocks and perhaps a checksum.
Frames with other marks hold no contents and are skipped. -/
namespace StackBound
namespace Zstandard

/-- A stream, of which the end may be missing. -/
structure Stream where
  bytes : Array UInt8
  /-- How many bytes it should have. -/
  size : Nat

namespace Stream

def slice? (s : Stream) (offset size : Nat) : Option (Array UInt8) :=
  if size = 0 then some #[]
  else if offset + size ≤ s.bytes.size then some (s.bytes.extract offset (offset + size)) else none

def number? (s : Stream) (offset size : Nat) : Option Nat := Literals.number? s.bytes offset size

end Stream

structure Frame where
  /-- How many bytes are still to come, if that is known. -/
  remaining : Option Nat
  hasChecksum : Bool
  windowSize : Nat
  /-- What has been unpacked. -/
  content : Array UInt8
  memory : Memory

namespace Frame

def magic : Nat := 0xFD2FB528

def isSkipped (mark : Nat) : Bool := mark / 16 = 0x184D2A5

def largestWindow : Nat := 8388608

def window (f : Frame) : Array UInt8 :=
  f.content.extract (f.content.size - f.windowSize) f.content.size

/-- The size of the window: a power of two and some eighths of it. -/
def windowOf (descriptor : Nat) : Nat :=
  let base := Nat.pow 2 (descriptor / 8 + 10)
  base + base / 8 * (descriptor % 8)

/-- Reads a header that follows its mark, which starts at the offset. It has one byte that says which
of the others are there: the window, the number of a dictionary and the size of the contents. -/
def read (s : Stream) (offset : Nat) : Except Failure (Frame × Nat) :=
  match s.number? (offset + 4) 1 with
  | none => failAt (offset + 4) .cutOff
  | some descriptor =>
    let isSingle := descriptor.testBit 5
    let windowBytes := if isSingle then 0 else 1
    let dictionaryBytes := if descriptor % 4 = 0 then 0 else Nat.pow 2 (descriptor % 4 - 1)
    let sizeBytes := if descriptor < 64 ∧ !isSingle then 0 else Nat.pow 2 (descriptor / 64)
    if descriptor.testBit 3 then failAt (offset + 4) .reservedBit
    else
      let start := offset + 5
      let rest := start + windowBytes + dictionaryBytes + sizeBytes
      match s.number? start windowBytes, s.number? (start + windowBytes) dictionaryBytes,
          s.number? (rest - sizeBytes) sizeBytes with
      | some windowByte, some dictionary, some size =>
        if dictionary ≠ 0 then failAt start .dictionary
        else
          let size := if sizeBytes = 2 then size + 256 else size
          .ok (
            { remaining := if sizeBytes = 0 then none else some size
              hasChecksum := descriptor.testBit 2
              windowSize := min largestWindow (if isSingle then size else windowOf windowByte)
              content := #[]
              memory := .initial }, rest)
      | _, _, _ => failAt start .cutOff

/-- Unpacks a block of a given kind and size that starts at an offset. What is returned are its
contents, what it leaves to the next block, its end, and how far a complaint about the whole frame is
placed after that. -/
def block (f : Frame) (s : Stream) (kind size offset : Nat) :
    Except Failure (Array UInt8 × Memory × Nat × Nat) :=
  let cut := Failure.located (offset + 3) .cutOff
  if kind = 0 then
    match s.slice? (offset + 3) size with
    | none => .error cut
    | some bytes => .ok (bytes, f.memory, offset + 3 + size, 3 + size)
  else if kind = 1 then
    match s.bytes[offset + 3]? with
    | none => .error cut
    | some b => .ok (Array.replicate size b, f.memory, offset + 4, 4)
  else if kind = 2 then
    match s.slice? (offset + 3) size with
    | none => .error cut
    | some bytes =>
      match unpackBlock f.window f.memory bytes with
      | .error failure => .error (failure.shift (offset + 3))
      | .ok (bytes, memory) => .ok (bytes, memory, offset + 3 + size, 3)
  else .error (.located (offset + 3) .blockType)

def finish (f : Frame) (s : Stream) (offset place : Nat) : Except Failure Nat :=
  if f.remaining.elim false (· ≠ 0) then failAt place .shortage
  else if f.hasChecksum then
    match s.number? offset 4 with
    | none => failAt offset .cutOff
    | some stated =>
      let found := (XxHash64.hash f.content.toList).toNat % Nat.pow 2 32
      if found = stated then .ok (offset + 4) else failAt offset (.checksum found stated)
  else .ok offset

/-- Reads one block. The frame is returned with what was unpacked, if it goes on, and what follows. -/
def advance (f : Frame) (s : Stream) (offset : Nat) :
    Except Failure (Array UInt8 × Option Frame × Nat) :=
  match s.number? offset 3 with
  | none => failAt offset .cutOff
  | some header => do
    let size := header / 8
    if mostOutput < size ∨ (0 < f.windowSize ∧ f.windowSize < size) then
      failAt (offset + 3) .blockSize
    else
      let (bytes, memory, stop, distance) ← f.block s (header / 2 % 4) size offset
      if f.remaining.elim false (· < bytes.size) then failAt (stop + distance) .surplus
      else
        let f := { f with
          remaining := f.remaining.map (· - bytes.size)
          content := f.content ++ bytes
          memory := memory }
        if header % 2 = 0 then return (bytes, some f, stop)
        else return (bytes, none, ← f.finish s stop (stop + distance))

end Frame

/-- Skips a frame without contents; the offset is that of its size. -/
def skip (s : Stream) (offset : Nat) : Except Failure Nat :=
  match s.number? offset 4 with
  | none => failAt offset .cutOff
  | some size =>
    if size ≠ 0 ∧ s.size < offset + 4 + size then failAt s.size .cutOff else .ok (offset + 4 + size)

/-- Unpacks until there are as many bytes as wanted. There has to be one frame at least. Every round
takes up three bytes or more, so the fuel need not exceed the size of the stream. -/
def unpack (s : Stream) (wanted : Nat) :
    Nat → Option Frame → Bool → Nat → Array UInt8 → Except Failure (Array UInt8)
  | 0, _, _, _, output => .error (.ended (!output.isEmpty))
  | fuel + 1, frame, isLater, offset, output =>
    if wanted ≤ output.size then .ok output
    else match frame with
      | some f =>
        match f.advance s offset with
        | .error failure => .error failure
        | .ok (bytes, frame, offset) => unpack s wanted fuel frame isLater offset (output ++ bytes)
      | none =>
        if isLater ∧ s.bytes.size ≤ offset then .error (.ended (!output.isEmpty))
        else match s.number? offset 4 with
          | none => failAt offset .cutOff
          | some mark =>
            if mark = Frame.magic then
              match Frame.read s offset with
              | .error failure => .error failure
              | .ok (f, offset) => unpack s wanted fuel (some f) true offset output
            else if Frame.isSkipped mark then
              match skip s (offset + 4) with
              | .error failure => .error failure
              | .ok offset => unpack s wanted fuel none true offset output
            else failAt offset .magic

/-- The first bytes of what a stream holds, as many as wanted. The stream should have a given size,
but its end may be missing. -/
def read (wanted size : Nat) (stream : Bytes) : Except Failure Bytes :=
  let s : Stream := ⟨stream.toArray, size⟩
  (unpack s wanted (s.bytes.size + 1) none false 0 #[]).map fun output => output.toList.take wanted

end Zstandard
end StackBound
