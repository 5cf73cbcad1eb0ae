import StackBound.Zstandard.Literals

/-! The sequences of a block. Each takes some literals and then repeats bytes from before. The three
numbers of a sequence are symbols of three machines, followed by bits that are added to them. -/
namespace StackBound
namespace Zstandard

/-! ### Numbers of a sequence -/

/-- What a symbol stands for: a number, and how many bits follow and are added to it. -/
abbrev Meaning := Nat × Nat

def literalMeanings : List Meaning :=
  [(16, 1), (18, 1), (20, 1), (22, 1), (24, 2), (28, 2), (32, 3), (40, 3), (48, 4), (64, 6)] ++
    (List.range 10).map fun i => (Nat.pow 2 (i + 7), i + 7)

def copyMeanings : List Meaning :=
  [(35, 1), (37, 1), (39, 1), (41, 1), (43, 2), (47, 2), (51, 3), (59, 3), (67, 4), (83, 4),
   (99, 5)] ++ (List.range 10).map fun i => (Nat.pow 2 (i + 7) + 3, i + 7)

def literalMeaning? (symbol : Nat) : Option Meaning :=
  if symbol < 16 then some (symbol, 0) else literalMeanings[symbol - 16]?

def copyMeaning? (symbol : Nat) : Option Meaning :=
  if symbol < 32 then some (symbol + 3, 0) else copyMeanings[symbol - 32]?

/-- The first two symbols stand for distances that were used before, the others for new ones. -/
def distanceMeaning? (symbol : Nat) : Option Meaning :=
  if symbol < 2 then some (Nat.pow 2 symbol, symbol)
  else if symbol < 32 then some (Nat.pow 2 symbol - 3, symbol) else none

structure Field where
  meaning? : Nat → Option Meaning
  /-- The machine of a block that brings none along. -/
  standard : States
  lastSymbol : Nat
  mostLog : Nat
  /-- The complaint about a symbol past the last. -/
  overflow : Cause

def literalField : Field where
  meaning? := literalMeaning?
  standard := .ofShares 6
    [4, 3, 2, 2, 2, 2, 2, 2, 2, 2, 2, 2, 2, 1, 1, 1, 2, 2, 2, 2, 2, 2, 2, 2, 2, 3, 2, 1, 1, 1, 1, 1,
     -1, -1, -1, -1]
  lastSymbol := 35
  mostLog := 9
  overflow := .lengthSymbol

def distanceField : Field where
  meaning? := distanceMeaning?
  standard := .ofShares 5
    [1, 1, 1, 1, 1, 1, 2, 2, 2, 1, 1, 1, 1, 1, 1, 1, 1, 1, 1, 1, 1, 1, 1, 1, -1, -1, -1, -1, -1]
  lastSymbol := 31
  mostLog := 8
  overflow := .offsetSymbol

def copyField : Field where
  meaning? := copyMeaning?
  standard := .ofShares 6
    [1, 4, 3, 2, 2, 2, 2, 2, 2, 1, 1, 1, 1, 1, 1, 1, 1, 1, 1, 1, 1, 1, 1, 1, 1, 1, 1, 1, 1, 1, 1, 1,
     1, 1, 1, 1, 1, 1, 1, 1, 1, 1, 1, 1, 1, 1, -1, -1, -1, -1, -1, -1, -1]
  lastSymbol := 52
  mostLog := 9
  overflow := .lengthSymbol

/-- Reads the machine of a field: the standard one, one of a single symbol, a new one, or that of the
block before. -/
def Field.read (f : Field) (data : Array UInt8) (known : Option States) (mode offset : Nat) :
    Except Failure (States × Nat) :=
  if mode = 0 then .ok (f.standard, offset)
  else if mode = 1 then
    match data[offset]? with
    | none => failAt offset .cutOff
    | some symbol =>
      if f.lastSymbol < symbol.toNat then failAt (offset + 1) f.overflow
      else .ok (.single symbol.toNat, offset + 1)
  else if mode = 2 then States.read data offset f.lastSymbol f.mostLog
  else match known with
    | none => failAt offset .missingTable
    | some t => .ok (t, offset)

structure Machines where
  literals : States
  distances : States
  copies : States

namespace Sequences

def count (data : Array UInt8) (offset : Nat) : Except Failure (Nat × Nat) :=
  match data[offset]? with
  | none => failAt offset .cutOff
  | some first =>
    let first := first.toNat
    if first < 128 then .ok (first, offset + 1)
    else
      let size := if first = 255 then 2 else 1
      match Literals.number? data (offset + 1) size with
      | none => failAt (offset + 1) .cutOff
      | some more =>
        .ok (if first = 255 then more + 0x7F00 else (first - 128) * 256 + more, offset + 1 + size)

def machines (data : Array UInt8) (known : Option Machines) (offset : Nat) :
    Except Failure (Machines × Nat) :=
  match data[offset]? with
  | none => failAt offset .cutOff
  | some modes =>
    let modes := modes.toNat
    if modes % 4 ≠ 0 then failAt offset .mode
    else do
      let (literals, offset) ←
        literalField.read data (known.map (·.literals)) (modes / 64) (offset + 1)
      let (distances, offset) ←
        distanceField.read data (known.map (·.distances)) (modes / 16 % 4) offset
      let (copies, offset) ← copyField.read data (known.map (·.copies)) (modes / 4 % 4) offset
      return (⟨literals, distances, copies⟩, offset)

/-- Reads how many sequences there are and their machines. If the first byte is zero there are none,
and the machines of the block before are kept. -/
def header (data : Array UInt8) (known : Option Machines) (offset : Nat) :
    Except Failure (Nat × Option Machines × Nat) := do
  let (n, start) ← count data offset
  if data.getD offset 0 = 0 then return (0, known, start)
  else
    let (m, start) ← machines data known start
    return (n, some m, start)

end Sequences

/-! ### Carrying out sequences -/

/-- The distances used last, the latest first. -/
structure Recent where
  first : Nat
  second : Nat
  third : Nat

namespace Recent

def initial : Recent := ⟨1, 4, 8⟩

def push (r : Recent) (distance : Nat) : Recent := ⟨distance, r.first, r.second⟩

/-- The distance with a number from one to four; four stands for one less than the latest. -/
def pick (r : Recent) (number : Nat) : Nat × Recent :=
  if number = 1 then (r.first, r)
  else if number = 2 then (r.second, ⟨r.second, r.first, r.third⟩)
  else if number = 3 then (r.third, r.push r.third)
  else (r.first - 1, r.push (r.first - 1))

end Recent

structure Work where
  reader : Backward
  literalState : Nat
  distanceState : Nat
  copyState : Nat
  recent : Recent
  /-- The literals that are left. -/
  literals : Bytes
  output : Array UInt8

/-- Repeats bytes of what was put out before; they may be some of those that are being added. -/
def copyBack (window output : Array UInt8) (length distance : Nat) : Array UInt8 :=
  (List.range length).foldl (fun output _ =>
    let index := window.size + output.size - distance
    output.push (if index < window.size then window.getD index 0
      else output.getD (index - window.size) 0)) output

namespace Work

def value (meaning? : Nat → Option Meaning) (state : State) (r : Backward) :
    Except Failure (Nat × Nat × Backward) := do
  let (base, bits) := (meaning? state.symbol).getD (0, 0)
  let (more, r) ← r.take bits
  return (base + more, bits, r)

def next (state : State) (r : Backward) : Except Failure (Nat × Backward) := do
  let (more, r) ← r.take state.bits
  return (state.base + more, r)

/-- The distance of a sequence. One of the recent distances is taken if no more than one bit
follows its symbol; without literals the count of these starts one later. -/
def distance (recent : Recent) (value bits literals : Nat) : Nat × Recent :=
  if 1 < bits then (value, recent.push value)
  else recent.pick (if literals = 0 then value + 1 else value)

/-- Carries out one sequence. The states move on unless it is the last. -/
def step (window : Array UInt8) (m : Machines) (isLast : Bool) (w : Work) : Except Failure Work :=
  if mostOutput < w.output.size + w.literals.length then w.reader.fail .outputSize
  else do
    let literalState := m.literals.get w.literalState
    let distanceState := m.distances.get w.distanceState
    let copyState := m.copies.get w.copyState
    let (far, farBits, r) ← value distanceMeaning? distanceState w.reader
    let (length, _, r) ← value copyMeaning? copyState r
    let (taken, _, r) ← value literalMeaning? literalState r
    let (far, recent) := distance w.recent far farBits taken
    let (w, r) ←
      if isLast then pure (w, r)
      else do
        let (literalState, r) ← next literalState r
        let (copyState, r) ← next copyState r
        let (distanceState, r) ← next distanceState r
        pure ({ w with
          literalState := literalState, copyState := copyState, distanceState := distanceState }, r)
    if w.literals.length < taken then r.fail .literalCount
    else
      let output := (w.literals.take taken).foldl Array.push w.output
      if far = 0 then r.fail .zeroOffset
      else if window.size + output.size < far then r.fail .farOffset
      else
        return { w with
          reader := r
          recent := recent
          literals := w.literals.drop taken
          output := copyBack window output length far }

def run (window : Array UInt8) (m : Machines) : Nat → Work → Except Failure Work
  | 0, w => .ok w
  | left + 1, w =>
    match step window m (left = 0) w with
    | .error failure => .error failure
    | .ok w => run window m left w

end Work

/-- What a block leaves to the next one: the code of its literals, its machines and the distances. -/
structure Memory where
  code : Option Code
  machines : Option Machines
  recent : Recent

def Memory.initial : Memory := ⟨none, none, .initial⟩

def unpackBlock (window : Array UInt8) (memory : Memory) (data : Array UInt8) :
    Except Failure (Array UInt8 × Memory) := do
  let literals ← Literals.read data memory.code
  let (count, machines, offset) ← Sequences.header data memory.machines literals.rest
  let memory := { memory with code := literals.code, machines := machines }
  match count, machines with
  | 0, _ | _, none =>
    if offset < data.size then failAt offset .unusedBytes
    else return (literals.bytes.toArray, memory)
  | count, some m =>
    let r ← Backward.ofLast data (data.size - 1) offset
    let (literalState, r) ← r.take m.literals.log
    let (distanceState, r) ← r.take m.distances.log
    let (copyState, r) ← r.take m.copies.log
    let w ← Work.run window m count
      ⟨r, literalState, distanceState, copyState, memory.recent, literals.bytes, #[]⟩
    if w.reader.count ≠ 0 then failAt offset .unusedBits
    else return (w.literals.foldl Array.push w.output, { memory with recent := w.recent })

end Zstandard
end StackBound
