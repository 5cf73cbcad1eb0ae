import StackBound.Text.Bytes

/-! The characters of a text that may be malformed. A byte that starts no well-formed UTF-8
sequence stands for itself, so the glyphs of a text always spell the text again. -/
namespace StackBound

inductive Glyph
  | char (c : Char)
  | stray (b : UInt8)
  deriving DecidableEq, Repr

namespace Glyph

def bytes : Glyph → Bytes
  | .char c => String.utf8EncodeChar c
  | .stray b => [b]

def shown : Glyph → Char
  | .char c => c
  | .stray _ => '\uFFFD'

def is (test : Char → Bool) : Glyph → Bool
  | .char c => test c
  | .stray _ => false

end Glyph

namespace Utf8

def isTail (b : UInt8) : Bool := 0x80 ≤ b && b ≤ 0xBF

def tail (b : UInt8) : Nat := b.toNat % 64

def isPair (a b : UInt8) : Bool := 0xC2 ≤ a && a ≤ 0xDF && isTail b

/-- Three bytes of a character: neither overlong nor a surrogate. -/
def isTriple (a b c : UInt8) : Bool :=
  0xE0 ≤ a && a ≤ 0xEF && isTail b && isTail c &&
    (a != 0xE0 || 0xA0 ≤ b) && (a != 0xED || b ≤ 0x9F)

/-- Four bytes of a character: neither overlong nor beyond the last code point. -/
def isQuad (a b c d : UInt8) : Bool :=
  0xF0 ≤ a && a ≤ 0xF4 && isTail b && isTail c && isTail d &&
    (a != 0xF0 || 0x90 ≤ b) && (a != 0xF4 || b ≤ 0x8F)

def pair (a b : UInt8) : Char := Char.ofNat (a.toNat % 32 * 64 + tail b)

def triple (a b c : UInt8) : Char :=
  Char.ofNat ((a.toNat % 16 * 64 + tail b) * 64 + tail c)

def quad (a b c d : UInt8) : Char :=
  Char.ofNat (((a.toNat % 8 * 64 + tail b) * 64 + tail c) * 64 + tail d)

/-- The glyph that a byte starts, and how many of the following bytes it takes. -/
def first (a : UInt8) (rest : Bytes) : Glyph × Nat :=
  -- A missing byte reads as zero, which continues no sequence.
  let b := rest.headD 0
  let c := (rest.drop 1).headD 0
  let d := (rest.drop 2).headD 0
  if a < 0x80 then (.char (Char.ofNat a.toNat), 0)
  else if isPair a b then (.char (pair a b), 1)
  else if isTriple a b c then (.char (triple a b c), 2)
  else if isQuad a b c d then (.char (quad a b c d), 3)
  else (.stray a, 0)

/-- Adds the glyphs of a text to those already found, after skipping bytes that are accounted for. -/
def collect (found : List Glyph) : Nat → Bytes → List Glyph
  | _, [] => found.reverse
  | skip + 1, _ :: rest => collect found skip rest
  | 0, a :: rest =>
    let next := first a rest
    collect (next.1 :: found) next.2 rest

end Utf8

namespace Bytes

def glyphs (text : Bytes) : List Glyph := Utf8.collect [] 0 text

def ofGlyphs (glyphs : List Glyph) : Bytes := glyphs.flatMap Glyph.bytes

def shown (text : Bytes) : String := String.ofList (text.glyphs.map Glyph.shown)

def wellFormed (text : Bytes) : Bytes := (text.glyphs.map Glyph.shown).flatMap String.utf8EncodeChar

end Bytes
end StackBound
