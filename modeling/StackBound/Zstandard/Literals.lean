import StackBound.Zstandard.Code

/-! The literals of a block: bytes that are not repeated from before. They stand as they are, or one
stands for all, or they are written in a prefix code, in one stream or in four. -/
namespace StackBound
namespace Zstandard

def mostOutput : Nat := 131072

structure Literals where
  bytes : Bytes
  /-- The code that later blocks may use again. -/
  code : Option Code
  /-- What follows the literals. -/
  rest : Nat

namespace Literals

def number? (data : Array UInt8) (offset size : Nat) : Option Nat :=
  if offset + size ≤ data.size then
    some ((data.extract offset (offset + size)).toList.foldr (fun b n => b.toNat + 256 * n) 0)
  else none

/-- How many bytes the header of plain or repeated literals has, and how many of its low bits do not
belong to the number of literals. -/
def plainHeader (form : Nat) : Nat × Nat :=
  if form = 1 then (2, 4) else if form = 3 then (3, 4) else (1, 3)

def plain (data : Array UInt8) (code : Option Code) (first : Nat) : Except Failure Literals :=
  let (size, low) := plainHeader (first / 4 % 4)
  match number? data 0 size with
  | none => failAt 1 .cutOff
  | some header =>
    let count := header / Nat.pow 2 low
    if mostOutput < count then failAt size .literalSize
    else if first % 4 = 0 then
      if data.size < size + count then failAt size .plainLiterals
      else .ok ⟨(data.extract size (size + count)).toList, code, size + count⟩
    else match data[size]? with
      | none => failAt size .repeatedLiteral
      | some b => .ok ⟨List.replicate count b, code, size + 1⟩

/-- How many bytes the header of coded literals has, and how many bits each of its two numbers. -/
def codedHeader (form : Nat) : Nat × Nat :=
  if form = 2 then (4, 14) else if form = 3 then (5, 18) else (3, 10)

/-- One stream. Bytes before it may be looked at, as the code does not need all of its bits. -/
def oneStream (data : Array UInt8) (code : Code) (offset size count : Nat) :
    Except Failure Bytes := do
  let r ← Backward.ofLast data (offset + size - 1) (offset - 2)
  (code.decode count r []).mapError (·.2)

def firstFailure (read : List (Except (Nat × Failure) Bytes)) : Option Failure :=
  let failures := read.filterMap fun stream => match stream with
    | .error failure => some failure
    | .ok _ => none
  (failures.foldl (fun (first : Option (Nat × Failure)) failure =>
    match first with
    | some found => if failure.1 < found.1 then some failure else first
    | none => some failure) none).map (·.2)

/-- Four streams. The sizes of three stand before them. All but the last have the same number of
literals. -/
def fourStreams (data : Array UInt8) (code : Code) (offset size count : Nat) :
    Except Failure Bytes :=
  match number? data offset 2, number? data (offset + 2) 2, number? data (offset + 4) 2 with
  | some size1, some size2, some size3 =>
    if size < 6 then failAt offset .cutOff
    else if size < 6 + size1 + size2 + size3 then failAt (offset + 6) .cutOff
    else do
      let start1 := offset + 6
      let start2 := start1 + size1
      let start3 := start2 + size2
      let start4 := start3 + size3
      let stop := offset + size
      let r1 ← Backward.ofLast data (start2 - 1) (start1 - 2)
      let r2 ← Backward.ofLast data (start3 - 1) (start2 - 2)
      let r3 ← Backward.ofLast data (start4 - 1) (start3 - 2)
      let r4 ← Backward.ofLast data (stop - 1) (start4 - 2)
      let each := (count + 3) / 4
      let read := [(each, r1), (each, r2), (each, r3), (count - 3 * each, r4)].map fun (n, r) =>
        code.decode n r []
      match firstFailure read with
      | some failure => .error failure
      | none => return (read.flatMap fun stream => stream.toOption.getD []).take count
  | _, _, _ => failAt offset .cutOff

/-- Literals in a prefix code, which stands before them or is that of an earlier block. -/
def coded (data : Array UInt8) (known : Option Code) (first : Nat) : Except Failure Literals :=
  let form := first / 4 % 4
  let (size, width) := codedHeader form
  match number? data 0 size with
  | none => failAt 1 .cutOff
  | some header =>
    let count := header / 16 % Nat.pow 2 width
    let packed := header / Nat.pow 2 (4 + width)
    let rest := size + packed
    if mostOutput < count then failAt size .literalSize
    else if data.size < rest then failAt size .cutOff
    else do
      let (code, start) ←
        if first % 4 = 2 then
          match Code.read data size with
          | .error failure => .error failure
          | .ok (code, start) => if rest < start then failAt size .codeSize else .ok (code, start)
        else match known with
          | none => failAt size .missingCode
          | some code => .ok (code, size)
      let streams := if form = 0 then oneStream else fourStreams
      return ⟨← streams data code start (rest - start) count, some code, rest⟩

def read (data : Array UInt8) (known : Option Code) : Except Failure Literals :=
  match data[0]? with
  | none => failAt 0 .cutOff
  | some first =>
    if first % 4 < 2 then plain data known first.toNat else coded data known first.toNat

end Literals
end Zstandard
end StackBound
