import StackBound.Deflate.Source

/-! Prefix codes given by the lengths of their words. Shorter words come before longer ones, and words
of one length are in the order of their symbols. -/
namespace StackBound
namespace Deflate

def longestWord : Nat := 15

structure Code where
  /-- How many words there are of each length, from one on. -/
  counts : List Nat
  /-- The symbols in the order of their words. -/
  symbols : Array Nat
  /-- How many bits are looked at first. -/
  least : Nat

namespace Code

/-- The code with a word of the given length for each symbol, or none for the length zero. Every bit
string has to start with a word; but there may be no word at all, or only one, of one bit. -/
def ofLengths? (lengths : List Nat) : Option Code :=
  let sizes := (List.range longestWord).map (· + 1)
  let counts := sizes.map lengths.count
  let room := sizes.foldl (fun room size =>
    room + lengths.count size * Nat.pow 2 (longestWord - size)) 0
  let used := counts.foldl (· + ·) 0
  if used = 0 ∨ room = Nat.pow 2 longestWord ∨ (used = 1 ∧ counts.head? = some 1) then
    let symbols := sizes.flatMap fun size =>
      (lengths.zipIdx.filter (·.1 = size)).map (·.2)
    some ⟨counts, symbols.toArray, (sizes.find? lengths.contains).getD 0⟩
  else none

/-- Follows bits through the words of each length: `word` is what they make so far, `first` the first
word of this length, and `index` the place of its symbol. -/
def follow (symbols : Array Nat) (bits word first index length : Nat) :
    List Nat → Option (Nat × Nat)
  | [] => none
  | count :: counts =>
    let word := word + bits % 2
    if word < first + count then (symbols[index + (word - first)]?).map (length, ·)
    else follow symbols (bits / 2) (2 * word) (2 * (first + count)) (index + count) (length + 1) counts

def find (c : Code) (bits : Nat) : Option (Nat × Nat) := follow c.symbols bits 0 0 0 1 c.counts

/-- Looks for a word among so many bits, with zeros for those not taken yet, and looks at more if the
word found is longer. -/
def search (c : Code) (n : Nat) : Nat → Source → Except Failure (Nat × Source)
  | 0, s => s.corrupt
  | tries + 1, s =>
    match s.need n with
    | .error failure => .error failure
    | .ok s =>
      match c.find s.bits with
      | none => s.corrupt
      | some (length, symbol) =>
        if length ≤ s.count then .ok (symbol, s.drop length) else c.search length tries s

def read (c : Code) (s : Source) : Except Failure (Nat × Source) := c.search c.least (longestWord + 1) s

end Code
end Deflate
end StackBound
