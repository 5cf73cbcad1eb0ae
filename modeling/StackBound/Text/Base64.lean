import StackBound.Text.Bytes

/-! Bytes as letters: each three bytes are four letters of a 64-letter alphabet, and equals signs fill
up the last four. Line ends between letters are not read. -/
namespace StackBound
namespace Base64

def letter (n : Nat) : UInt8 :=
  (if n < 26 then 65 + n
   else if n < 52 then 71 + n
   else if n < 62 then n - 4
   else if n = 62 then 43 else 47).toUInt8

def value? (b : UInt8) : Option Nat :=
  if 65 ≤ b && b ≤ 90 then some (b.toNat - 65)
  else if 97 ≤ b && b ≤ 122 then some (b.toNat - 71)
  else if 48 ≤ b && b ≤ 57 then some (b.toNat + 4)
  else if b = 43 then some 62
  else if b = 47 then some 63
  else none

def pad : UInt8 := 61

/-- Adds the letters of some bytes to those already written, last first. -/
def encodeOnto (written : Bytes) : Bytes → Bytes
  | a :: b :: c :: rest =>
    let n := (a.toNat * 256 + b.toNat) * 256 + c.toNat
    encodeOnto (letter (n % 64) :: letter (n / 64 % 64) :: letter (n / 4096 % 64) ::
      letter (n / 262144) :: written) rest
  | [a, b] =>
    let n := a.toNat * 256 + b.toNat
    pad :: letter (n % 16 * 4) :: letter (n / 16 % 64) :: letter (n / 1024) :: written
  | [a] => pad :: pad :: letter (a.toNat % 4 * 16) :: letter (a.toNat / 4) :: written
  | [] => written

def encode (bytes : Bytes) : Bytes := (encodeOnto [] bytes).reverse

def decodeOnto (read : Bytes) : Bytes → Option Bytes
  | [] => some read
  | a :: b :: c :: d :: rest => do
    let a ← value? a
    let b ← value? b
    if c = pad ∧ d = pad ∧ rest = [] then
      return (a * 4 + b / 16).toUInt8 :: read
    let c ← value? c
    if d = pad ∧ rest = [] then
      return (b % 16 * 16 + c / 4).toUInt8 :: (a * 4 + b / 16).toUInt8 :: read
    let d ← value? d
    decodeOnto ((c % 4 * 64 + d).toUInt8 :: (b % 16 * 16 + c / 4).toUInt8 ::
      (a * 4 + b / 16).toUInt8 :: read) rest
  | _ => none

def decode (letters : Bytes) : Option Bytes :=
  (decodeOnto [] (letters.filter fun b => b != 10 && b != 13)).map List.reverse

end Base64
end StackBound
