import StackBound.Text.Printable
import StackBound.Text.Utf8

/-! Quoted text: printable characters stand for themselves, and everything else is written as a
backslash sequence, so that the quoted form determines the bytes. -/
namespace StackBound

namespace Quoted

def short? (c : Char) : Option UInt8 :=
  match c.toNat with
  | 7 => some 97
  | 8 => some 98
  | 12 => some 102
  | 10 => some 110
  | 13 => some 114
  | 9 => some 116
  | 11 => some 118
  | 92 => some 92
  | 34 => some 34
  | _ => none

def glyph : Glyph → Bytes
  | .stray b => [92, 120] ++ Bytes.hex 2 b.toNat
  | .char c =>
    match short? c with
    | some letter => [92, letter]
    | none =>
      if isPrintable c then String.utf8EncodeChar c
      else if c.toNat < 0x80 then [92, 120] ++ Bytes.hex 2 c.toNat
      else if c.toNat < 0x10000 then [92, 117] ++ Bytes.hex 4 c.toNat
      else [92, 85] ++ Bytes.hex 8 c.toNat

end Quoted

namespace Bytes

def quoted (text : Bytes) : Bytes := 34 :: text.glyphs.flatMap Quoted.glyph ++ [34]

end Bytes
end StackBound
