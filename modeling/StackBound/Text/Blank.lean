import StackBound.Text.Utf8

/-! White space and the words between it. -/
namespace StackBound

/-- The characters with the white-space property. The zero-width space, the byte order mark and
the information separators are not among them. -/
def isBlank (c : Char) : Bool :=
  let n := c.toNat
  (9 ≤ n && n ≤ 13) || n = 32 || n = 0x85 || n = 0xA0 || n = 0x1680 || (0x2000 ≤ n && n ≤ 0x200A) ||
    n = 0x2028 || n = 0x2029 || n = 0x202F || n = 0x205F || n = 0x3000

namespace Bytes

def trim (text : Bytes) : Bytes :=
  let blank := Glyph.is isBlank
  ofGlyphs ((text.glyphs.dropWhile blank).reverse.dropWhile blank).reverse

def words (glyphs : List Glyph) : List (List Glyph) :=
  let step (g : Glyph) (found : List Glyph × List (List Glyph)) :=
    if g.is isBlank then ([], if found.1.isEmpty then found.2 else found.1 :: found.2)
    else (g :: found.1, found.2)
  let (word, later) := glyphs.foldr step ([], [])
  if word.isEmpty then later else word :: later

def fields (text : Bytes) : List Bytes := (words text.glyphs).map ofGlyphs

end Bytes
end StackBound
