import StackBound.Text.Bytes

/-! A fast 64-bit hash without a seed. Whole stripes of four words are stirred into four lanes, the
lanes are merged, and the bytes that are left follow one by one. -/
namespace StackBound
namespace XxHash64

def prime1 : UInt64 := 0x9E3779B185EBCA87
def prime2 : UInt64 := 0xC2B2AE3D27D4EB4F
def prime3 : UInt64 := 0x165667B19E3779F9
def prime4 : UInt64 := 0x85EBCA77C2B2AE63
def prime5 : UInt64 := 0x27D4EB2F165667C5

def rotate (x n : UInt64) : UInt64 := (x <<< n) ||| (x >>> (64 - n))

def word (bytes : Bytes) : UInt64 := bytes.foldr (fun b n => b.toUInt64 + 256 * n) 0

def stir (lane input : UInt64) : UInt64 := rotate (lane + input * prime2) 31 * prime1

def stripes (lanes : List UInt64) (bytes : Bytes) : List UInt64 × Bytes :=
  if _h : 32 ≤ bytes.length then
    let words := [0, 8, 16, 24].map fun start => word ((bytes.drop start).take 8)
    stripes (lanes.zipWith stir words) (bytes.drop 32)
  else (lanes, bytes)
termination_by bytes.length

def merge (hash lane : UInt64) : UInt64 := (hash ^^^ stir 0 lane) * prime1 + prime4

def merged (lanes : List UInt64) : UInt64 :=
  lanes.foldl merge ((lanes.zipWith rotate [1, 7, 12, 18]).foldl (· + ·) 0)

/-- Stirs in what is left after the stripes: words, half a word, and bytes. -/
def tail (hash : UInt64) (bytes : Bytes) : UInt64 :=
  if _h : 8 ≤ bytes.length then
    tail (rotate (hash ^^^ stir 0 (word (bytes.take 8))) 27 * prime1 + prime4) (bytes.drop 8)
  else if _h : 4 ≤ bytes.length then
    tail (rotate (hash ^^^ word (bytes.take 4) * prime1) 23 * prime2 + prime3) (bytes.drop 4)
  else bytes.foldl (fun hash b => rotate (hash ^^^ b.toUInt64 * prime5) 11 * prime1) hash
termination_by bytes.length

def avalanche (hash : UInt64) : UInt64 :=
  let hash := (hash ^^^ hash >>> 33) * prime2
  let hash := (hash ^^^ hash >>> 29) * prime3
  hash ^^^ hash >>> 32

def hash (bytes : Bytes) : UInt64 :=
  let (lanes, rest) := stripes [prime1 + prime2, prime2, 0, 0 - prime1] bytes
  let start := if bytes.length < 32 then prime5 else merged lanes
  avalanche (tail (start + bytes.length.toUInt64) rest)

end XxHash64
end StackBound
