import StackBound.Text.Bytes

/-! Names of runs: sixteen random bytes as hexadecimal digits in five groups. Six of their bits are
fixed and say that the rest is random. -/
namespace StackBound
namespace RunId

def groups : List Nat := [4, 2, 2, 2, 6]

def byteCount : Nat := groups.foldl (· + ·) 0

def hyphen : UInt8 := 45

/-- Fixes the bits that tell how a name was made. -/
def marked (random : Bytes) : Bytes :=
  random.mapIdx fun i b =>
    if i = 6 then (b &&& 0x0f) ||| 0x40
    else if i = 8 then (b &&& 0x3f) ||| 0x80
    else b

def grouped : List Nat → Bytes → List Bytes
  | [], _ => []
  | size :: sizes, bytes =>
    ((bytes.take size).flatMap fun b => Bytes.hex 2 b.toNat) :: grouped sizes (bytes.drop size)

/-- The name made of random bytes; missing ones count as zero. -/
def ofRandom (random : Bytes) : Bytes :=
  let bytes := (random ++ List.replicate byteCount 0).take byteCount
  Bytes.join [hyphen] (grouped groups (marked bytes))

def isName (text : Bytes) : Bool :=
  let isDigit (b : UInt8) : Bool := (48 ≤ b && b ≤ 57) || (97 ≤ b && b ≤ 102)
  let parts := text.split hyphen
  parts.map List.length == groups.map (2 * ·) && parts.all (·.all isDigit) &&
    (parts.getD 2 []).head? == some 52 && [56, 57, 97, 98].contains ((parts.getD 3 []).headD 0)

end RunId
end StackBound
