import StackBound.Zstandard.Bits

/-! Symbols written as states of a machine. Each state stands for a symbol, and some bits lead to the
next state. A symbol has the more states, the more often it is expected. -/
namespace StackBound
namespace Zstandard

structure State where
  symbol : Nat
  /-- How many bits lead to the next state. -/
  bits : Nat
  /-- The number that they are added to. -/
  base : Nat
  deriving Inhabited

/-- A machine with two to the power of `log` states. -/
structure States where
  log : Nat
  states : Array State

namespace States

def get (t : States) (index : Nat) : State := t.states.getD index default

def single (symbol : Nat) : States := ⟨0, #[⟨symbol, 0, 0⟩]⟩

/-- The symbol of each state, given how many states the symbols have. A symbol with the share -1 has
one state at the end. The others are spread over the rest in steps that visit every state. -/
def spread (log : Nat) (shares : List Int) : Array Nat :=
  let size := Nat.pow 2 log
  let symbols := shares.zipIdx
  let rare := (symbols.filter (·.1 < 0)).map (·.2)
  let common := symbols.flatMap fun (share, symbol) => List.replicate share.toNat symbol
  let step := size / 2 + size / 8 + 3
  let places := ((List.range size).map (· * step % size)).filter (· < size - rare.length)
  let table := rare.zipIdx.foldl (fun (table : Array Nat) (symbol, i) =>
    table.setIfInBounds (size - 1 - i) symbol) (Array.replicate size 0)
  (places.zip common).foldl (fun table (place, symbol) => table.setIfInBounds place symbol) table

/-- The machine with the given shares. The states of a symbol divide all states among them. -/
def ofShares (log : Nat) (shares : List Int) : States :=
  let start := (shares.map fun share => if share < 0 then 1 else share.toNat).toArray
  let (states, _) := (spread log shares).foldl (fun (done : Array State × Array Nat) symbol =>
    let next := done.2.getD symbol 1
    let bits := log - next.log2
    (done.1.push ⟨symbol, bits, next * Nat.pow 2 bits - Nat.pow 2 log⟩,
      done.2.setIfInBounds symbol (next + 1))) (#[], start)
  ⟨log, states⟩

/-! ### Reading the shares -/

structure Shares where
  /-- The shares so far, last first. -/
  found : List Int
  /-- How many states are left, and one. -/
  remaining : Nat
  /-- A share that is small is written in so many bits, any other in one more. -/
  width : Nat
  /-- Whether the last share was nothing. -/
  afterNone : Bool

/-- How many more symbols have no states: pairs of bits are added up until one is not three. -/
def emptyRun (total : Nat) : Nat → Forward → Except Failure (Nat × Forward)
  | 0, r => r.fail .cutOff
  | fuel + 1, r =>
    if r.peek 2 = 3 then
      match (r.drop 2).refill with
      | .error failure => .error failure
      | .ok r => emptyRun (total + 3) fuel r
    else .ok (total + r.peek 2, r.drop 2)

/-- Reads one share. The largest ones are left out of the shorter numbers. -/
def share (s : Shares) (r : Forward) : Nat × Forward :=
  let most := Nat.pow 2 (s.width + 1) - 1 - s.remaining
  let small := r.peek s.width
  if small < most then (small, r.drop s.width)
  else
    let large := r.peek (s.width + 1)
    (if large < Nat.pow 2 s.width then large else large - most, r.drop (s.width + 1))

def shares (lastSymbol : Nat) : Nat → Shares → Forward → Except Failure (Shares × Forward)
  | 0, s, r => .ok (s, r)
  | fuel + 1, s, r =>
    if s.remaining ≤ 1 ∨ lastSymbol < s.found.length then .ok (s, r)
    else do
      let r ← r.refill
      if s.afterNone then
        let (more, r) ← emptyRun 0 (4 * r.data.size + 16) r
        if lastSymbol < s.found.length + more then r.fail .symbolIndex
        else
          shares lastSymbol fuel
            { s with found := List.replicate more 0 ++ s.found, afterNone := false } r
      else
        let (written, r) := share s r
        let remaining := s.remaining - (if written = 0 then 1 else written - 1)
        shares lastSymbol fuel
          { found := ((written : Int) - 1) :: s.found
            remaining := remaining
            width := min s.width remaining.log2
            afterNone := written = 1 } r

/-- Reads a machine for the symbols up to the last, with no more states than allowed, and tells what
follows it. -/
def read (data : Array UInt8) (offset lastSymbol mostLog : Nat) : Except Failure (States × Nat) := do
  let r ← (Forward.ofBytes data offset).refill
  let log := r.peek 4 + 5
  if mostLog < log then r.fail .accuracy
  else
    let (s, r) ← shares lastSymbol (2 * lastSymbol + 4) ⟨[], Nat.pow 2 log + 1, log, false⟩ (r.drop 4)
    if s.remaining ≠ 1 then r.fail .tooManySymbols
    else return (ofShares log s.found.reverse, r.rest)

end States
end Zstandard
end StackBound
