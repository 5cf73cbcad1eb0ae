import StackBound.Deflate.Code

/-! Unpacking streams of blocks. A block holds plain bytes, or symbols of two prefix codes: single
bytes, and references to bytes that were unpacked before. -/
namespace StackBound
namespace Deflate

structure Codes where
  /-- Bytes, the end of the block, and the lengths of references. -/
  literals : Code
  distances : Code

/-! ### Codes -/

def fixedLengths : List Nat :=
  List.replicate 144 8 ++ List.replicate 112 9 ++ List.replicate 24 7 ++ List.replicate 8 8

def Codes.fixed? : Option Codes := do
  return ⟨← Code.ofLengths? fixedLengths, ← Code.ofLengths? (List.replicate 32 5)⟩

/-- The order in which the lengths for the code of lengths are written. -/
def lengthOrder : List Nat := [16, 17, 18, 0, 8, 7, 9, 6, 10, 5, 11, 4, 12, 3, 13, 2, 14, 1, 15]

def endOfBlock : Nat := 256
def mostLiterals : Nat := 286
def mostDistances : Nat := 30

def triples : Nat → Source → List Nat → Except Failure (List Nat × Source)
  | 0, s, found => .ok (found.reverse, s)
  | n + 1, s, found => do
    let (value, s) ← s.take 3
    triples n s (value :: found)

/-- What a symbol of the code of lengths says: a length, and how many bits follow and are added to
how often it stands. -/
def repeated (symbol : Nat) (before : Option Nat) : Option (Nat × Nat × Nat) :=
  if symbol < 16 then some (symbol, 0, 1)
  else if symbol = 16 then before.map (·, 2, 3)
  else if symbol = 17 then some (0, 3, 3)
  else some (0, 7, 11)

def lengths (code : Code) (wanted : Nat) : Nat → Source → List Nat → Except Failure (List Nat × Source)
  | 0, s, found => if found.length = wanted then .ok (found.reverse, s) else s.corrupt
  | fuel + 1, s, found =>
    if wanted ≤ found.length then .ok (found.reverse, s)
    else do
      let (symbol, s) ← code.read s
      match repeated symbol found.head? with
      | none => s.corrupt
      | some (length, bits, least) =>
        let (extra, s) ← s.take bits
        let times := least + extra
        if wanted < found.length + times then s.corrupt
        else lengths code wanted fuel s (List.replicate times length ++ found)

def Codes.read (s : Source) : Except Failure (Codes × Source) := do
  let s ← s.need 14
  let (literals, s) ← s.take 5
  let literals := literals + 257
  if mostLiterals < literals then s.corrupt
  else
    let (distances, s) ← s.take 5
    let distances := distances + 1
    if mostDistances < distances then s.corrupt
    else
      let (sizes, s) ← s.take 4
      let (sizes, s) ← triples (sizes + 4) s []
      let written := lengthOrder.zip sizes
      match Code.ofLengths? ((List.range 19).map fun symbol => (written.lookup symbol).getD 0) with
      | none => s.corrupt
      | some code =>
        let wanted := literals + distances
        let (found, s) ← lengths code wanted wanted s []
        match Code.ofLengths? (found.take literals), Code.ofLengths? (found.drop literals) with
        | some lits, some dists =>
          -- A block ends with the word for its end, so that many bits are always there.
          .ok (⟨{ lits with least := max lits.least (found.getD endOfBlock 0) }, dists⟩, s)
        | _, _ => s.corrupt

/-! ### Blocks -/

def referenceLength (symbol : Nat) (s : Source) : Except Failure (Nat × Source) :=
  if symbol < 265 then .ok (symbol - 254, s)
  else if symbol < 285 then do
    let bits := (symbol - 261) / 4
    let (extra, s) ← s.take bits
    return ((4 + (symbol - 265) % 4) * Nat.pow 2 bits + 3 + extra, s)
  else if symbol < mostLiterals then .ok (258, s)
  else s.corrupt

/-- How far back a reference goes. -/
def referenceDistance (code : Code) (s : Source) : Except Failure (Nat × Source) := do
  let (symbol, s) ← code.read s
  if symbol < 4 then return (symbol + 1, s)
  else if symbol < mostDistances then
    let bits := (symbol - 2) / 2
    let (extra, s) ← s.take bits
    return ((2 + symbol % 2) * Nat.pow 2 bits + 1 + extra, s)
  else s.corrupt

/-- What has been unpacked, and what is still to be read. -/
structure Progress where
  source : Source
  output : Array UInt8

inductive Status
  /-- A block has ended. -/
  | running
  /-- There are as many bytes as wanted. -/
  | full
  /-- The last block has ended. -/
  | finished
  | failed (failure : Failure)
  deriving DecidableEq, Repr

/-- Repeats bytes of the output; they may be some of those that are being added. -/
def copyBack (output : Array UInt8) (length distance : Nat) : Array UInt8 :=
  (List.range length).foldl (fun output _ =>
    output.push (output.getD (output.size - distance) 0)) output

/-- Unpacks the symbols of a block. Each takes at least one bit, so the fuel need not exceed the bits
of the stream. -/
def symbols (wanted : Nat) (codes : Codes) : Nat → Progress → Progress × Status
  | 0, p => (p, .failed .truncated)
  | fuel + 1, p =>
    if wanted ≤ p.output.size then (p, .full)
    else match codes.literals.read p.source with
      | .error failure => (p, .failed failure)
      | .ok (symbol, s) =>
        if symbol < endOfBlock then symbols wanted codes fuel ⟨s, p.output.push symbol.toUInt8⟩
        else if symbol = endOfBlock then (⟨s, p.output⟩, .running)
        else
          let reference : Except Failure (Nat × Nat × Source) := do
            let (length, s) ← referenceLength symbol s
            let (distance, s) ← referenceDistance codes.distances s
            return (length, distance, s)
          match reference with
          | .error failure => (p, .failed failure)
          | .ok (length, distance, s) =>
            if p.output.size < distance then (p, .failed (.corrupt s.position))
            else symbols wanted codes fuel ⟨s, copyBack p.output length distance⟩

def plain (p : Progress) : Progress × Status :=
  match p.source.aligned.takeBytes 4 with
  | ([a, b, c, d], s) =>
    if a.toNat + c.toNat = 255 ∧ b.toNat + d.toNat = 255 then
      let length := a.toNat + b.toNat * 256
      let (bytes, s) := s.takeBytes length
      (⟨s, bytes.foldl Array.push p.output⟩,
        if bytes.length < length then .failed .truncated else .running)
    else (p, .failed (.corrupt s.position))
  | _ => (p, .failed .truncated)

def block (wanted fuel kind : Nat) (p : Progress) : Progress × Status :=
  if kind = 0 then plain p
  else
    let codes : Except Failure (Codes × Source) :=
      if kind = 1 then
        match Codes.fixed? with
        | some codes => .ok (codes, p.source)
        | none => p.source.corrupt
      else if kind = 2 then Codes.read p.source
      else p.source.corrupt
    match codes with
    | .error failure => (p, .failed failure)
    | .ok (codes, s) => symbols wanted codes fuel ⟨s, p.output⟩

def blocks (wanted fuel : Nat) : Nat → Progress → Progress × Status
  | 0, p => (p, .failed .truncated)
  | left + 1, p =>
    if wanted ≤ p.output.size then (p, .full)
    else match p.source.take 3 with
      | .error failure => (p, .failed failure)
      | .ok (header, s) =>
        match block wanted fuel (header / 2) ⟨s, p.output⟩ with
        | (p, .running) => if header % 2 = 1 then (p, .finished) else blocks wanted fuel left p
        | stopped => stopped

def inflate (wanted : Nat) (stream : Bytes) : Progress × Status :=
  let fuel := 8 * stream.length + 1
  blocks wanted fuel fuel ⟨.ofBytes stream, #[]⟩

end Deflate
end StackBound
