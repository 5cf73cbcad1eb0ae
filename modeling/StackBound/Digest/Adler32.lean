import StackBound.Text.Bytes

/-! The Adler checksum of some bytes: two sums modulo a prime, one of the bytes and one of the first
sum after each byte. -/
namespace StackBound
namespace Adler32

def modulus : Nat := 65521

def checksum (bytes : Bytes) : Nat :=
  let (low, high) := bytes.foldl (fun (sums : Nat × Nat) b =>
    let low := (sums.1 + b.toNat) % modulus
    (low, (sums.2 + low) % modulus)) (1, 0)
  high * 65536 + low

end Adler32
end StackBound
