import StackBound.Text.Utf8

/-! Names compared without regard to case. The names on one side are always ASCII, so of the folding
rules only those matter that end in an ASCII letter: the capitals, the long s and the Kelvin sign. -/
namespace StackBound

def foldChar (c : Char) : Char :=
  if c = '\u017F' then 's' else if c = '\u212A' then 'k' else c.toLower

namespace Bytes

def folded (text : Bytes) : Bytes :=
  ofGlyphs <| text.glyphs.map fun g => match g with
    | .char c => .char (foldChar c)
    | .stray b => .stray b

/-- The name that a key means: the one it equals, or else the first it equals but for case. -/
def meant? (names : List Bytes) (key : Bytes) : Option Bytes :=
  (names.find? (· = key)).orElse fun _ => names.find? (·.folded = key.folded)

end Bytes
end StackBound
