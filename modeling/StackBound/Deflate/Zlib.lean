import StackBound.Deflate.Inflate
import StackBound.Digest.Adler32

/-! Packed streams with a header before them and a checksum after them. -/
namespace StackBound
namespace Zlib

inductive Error
  | header
  | dictionary
  | checksum
  | corrupt (offset : Nat)
  /-- The stream is cut off, or it holds fewer bytes. -/
  | short
  /-- The stream holds no bytes. -/
  | ended
  deriving DecidableEq, Repr

def Error.text : Error → Bytes
  | .header => utf8 "zlib: invalid header"
  | .dictionary => utf8 "zlib: invalid dictionary"
  | .checksum => utf8 "zlib: invalid checksum"
  | .corrupt offset => utf8 "flate: corrupt input before offset " ++ Bytes.ofNat offset
  | .short => utf8 "unexpected EOF"
  | .ended => utf8 "EOF"

def bigEndian (bytes : Bytes) : Nat := bytes.foldl (fun n b => 256 * n + b.toNat) 0

/-- What follows the header. It names the packing and the size of its window, and it may name a
dictionary, of which only the empty one is known. -/
def body : Bytes → Except Error Bytes
  | method :: flags :: rest =>
    if method % 16 ≠ 8 ∨ 7 < method / 16 ∨ bigEndian [method, flags] % 31 ≠ 0 then .error .header
    else if flags / 32 % 2 = 0 then .ok rest
    else if rest.length < 4 then .error .short
    else if bigEndian (rest.take 4) = Adler32.checksum [] then .ok (rest.drop 4)
    else .error .dictionary
  | _ => .error .short

/-- Why a stream that has ended gave fewer bytes than wanted. -/
def shortfall (p : Deflate.Progress) : Error :=
  let (sum, _) := p.source.takeBytes 4
  if sum.length < 4 then .short
  else if bigEndian sum ≠ Adler32.checksum p.output.toList then .checksum
  else if p.output.isEmpty then .ended
  else .short

/-- The first bytes of what a stream holds, as many as wanted. The rest of the stream is not looked
at. -/
def read (wanted : Nat) (stream : Bytes) : Except Error Bytes :=
  match body stream with
  | .error e => .error e
  | .ok packed =>
    let (p, status) := Deflate.inflate wanted packed
    if wanted ≤ p.output.size then .ok (p.output.toList.take wanted)
    else match status with
      | .failed (.corrupt offset) => .error (.corrupt offset)
      | .failed .truncated => .error .short
      | .running | .full | .finished => .error (shortfall p)

end Zlib
end StackBound
