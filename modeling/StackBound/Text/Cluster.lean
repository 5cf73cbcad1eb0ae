import StackBound.Text.Combining
import StackBound.Text.Picture
import StackBound.Text.Range
import StackBound.Text.Utf8

/-! Clusters: the runs of characters that are seen as one. A cluster goes on as long as the character
that follows belongs to what was read so far. -/
namespace StackBound
namespace Cluster

inductive Kind
  | other
  | carriageReturn
  | lineFeed
  | control
  /-- A mark on the character before it. -/
  | extend
  /-- Joins two pictures. -/
  | joiner
  /-- One of the letters that spell a flag by twos. -/
  | regional
  /-- A sign that belongs to what follows. -/
  | prepend
  | spacing
  /-- The letters that start a Hangul syllable. -/
  | leading
  | vowel
  | trailing
  /-- A syllable that a trailing letter may still join. -/
  | openSyllable
  | closedSyllable
  | picture
  deriving DecidableEq, Repr

def firstSyllable : Nat := 0xAC00
def lastSyllable : Nat := 0xD7A3

/-- Of each run of so many syllables, one for each trailing letter, the first has none. -/
def trailingCount : Nat := 28

def isRegional (n : Nat) : Bool := 0x1F1E6 ≤ n && n ≤ 0x1F1FF

def leadingRanges : List (Nat × Nat) := [(0x1100, 0x115F), (0xA960, 0xA97C)]
def vowelRanges : List (Nat × Nat) := [(0x1160, 0x11A7), (0xD7B0, 0xD7C6)]
def trailingRanges : List (Nat × Nat) := [(0x11A8, 0x11FF), (0xD7CB, 0xD7FB)]

def Kind.ofCode (n : Nat) : Kind :=
  if n = 13 then .carriageReturn
  else if n = 10 then .lineFeed
  else if n = 0x200D then .joiner
  else if firstSyllable ≤ n && n ≤ lastSyllable then
    if (n - firstSyllable) % trailingCount = 0 then .openSyllable else .closedSyllable
  else if isRegional n then .regional
  else if isIn leadingRanges n then .leading
  else if isIn vowelRanges n then .vowel
  else if isIn trailingRanges n then .trailing
  else if isIn controlRanges n then .control
  else if isIn extendRanges n then .extend
  else if isIn spacingRanges n then .spacing
  else if isIn prependRanges n then .prepend
  else if isIn pictureRanges n then .picture
  else .other

def Kind.of (c : Char) : Kind := .ofCode c.toNat

inductive Tail
  | other
  | carriageReturn
  | control
  | prepend
  | leading
  | vowel
  | trailing
  | picture
  /-- A picture and a joiner after it. -/
  | joined
  /-- Half a flag. -/
  | half
  | flag
  deriving DecidableEq, Repr

def Tail.start : Kind → Tail
  | .carriageReturn => .carriageReturn
  | .lineFeed | .control => .control
  | .prepend => .prepend
  | .leading => .leading
  | .vowel | .openSyllable => .vowel
  | .trailing | .closedSyllable => .trailing
  | .picture => .picture
  | .regional => .half
  | .other | .extend | .joiner | .spacing => .other

/-- Whether a cluster goes on with a character: marks join everything but controls, the letters of a
syllable each other in their order, a picture another by a joiner, and a flag has two letters. -/
def Tail.joins : Tail → Kind → Bool
  | .carriageReturn, kind => kind = .lineFeed
  | .control, _ => false
  | _, .carriageReturn | _, .lineFeed | _, .control => false
  | _, .extend | _, .joiner | _, .spacing => true
  | .prepend, _ => true
  | .leading, kind => kind ∈ [.leading, .vowel, .openSyllable, .closedSyllable]
  | .vowel, kind => kind ∈ [.vowel, .trailing]
  | .trailing, kind => kind = .trailing
  | .joined, kind => kind = .picture
  | .half, kind => kind = .regional
  | .other, _ | .picture, _ | .flag, _ => false

def Tail.next : Tail → Kind → Tail
  | .picture, .extend => .picture
  | .picture, .joiner => .joined
  | .half, .regional => .flag
  | _, kind => .start kind

def extend {α : Type} (add : α → Char → Kind → α) (tail : Tail) (value : α) (size : Nat) :
    Nat → Bytes → α × Nat
  | _, [] => (value, size)
  | skip + 1, _ :: rest => extend add tail value (size + 1) skip rest
  | 0, a :: rest =>
    let found := Utf8.first a rest
    let c := found.1.shown
    let kind := Kind.of c
    if tail.joins kind then
      extend add (tail.next kind) (add value c kind) (size + 1) found.2 rest
    else (value, size)

end Cluster
end StackBound
