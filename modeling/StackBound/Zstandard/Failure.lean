import StackBound.Text.Bytes

/-! What can be wrong with a packed stream, and where. -/
namespace StackBound
namespace Zstandard

inductive Cause
  | cutOff
  -- Frames and blocks.
  | magic
  | reservedBit
  | dictionary
  | blockSize
  | blockType
  | surplus
  | shortage
  | checksum (found stated : Nat)
  -- Tables of states.
  | accuracy
  | symbolIndex
  | tooManySymbols
  -- Prefix codes.
  | zeroByte
  | weightCount
  | weightSize
  | weights
  | codeSize
  | missingCode
  -- Literals.
  | literalSize
  | plainLiterals
  | repeatedLiteral
  | outOfBits
  -- Sequences.
  | mode
  | missingTable
  | lengthSymbol
  | offsetSymbol
  | unusedBytes
  | unusedBits
  | outputSize
  | literalCount
  | zeroOffset
  | farOffset
  deriving DecidableEq, Repr

def hexText (n : Nat) : Bytes := utf8 "0x" ++ (Nat.toDigits 16 n).map fun c => c.toNat.toUInt8

def Cause.text : Cause → Bytes
  | .cutOff => utf8 "unexpected EOF"
  | .magic => utf8 "invalid magic number"
  | .reservedBit => utf8 "reserved bit set in frame header descriptor"
  | .dictionary => utf8 "dictionaries are not supported"
  | .blockSize => utf8 "block size too large"
  | .blockType => utf8 "invalid block type"
  | .surplus => utf8 "too many uncompressed bytes in frame"
  | .shortage => utf8 "not enough uncompressed bytes for frame"
  | .checksum found stated =>
    utf8 "invalid checksum: got " ++ hexText found ++ utf8 " want " ++ hexText stated
  | .accuracy => utf8 "FSE accuracy log too large"
  | .symbolIndex => utf8 "FSE symbol index overflow"
  | .tooManySymbols => utf8 "too many symbols in FSE table"
  | .zeroByte => utf8 "zero byte at reverse bit stream start"
  | .weightCount => utf8 "Huffman count overflow"
  | .weightSize => utf8 "Huffman weight overflow"
  | .weights => utf8 "bad Huffman weights"
  | .codeSize => utf8 "Huffman table too big"
  | .missingCode => utf8 "missing literals Huffman tree"
  | .literalSize => utf8 "literal size too large"
  | .plainLiterals => utf8 "raw literal size too large"
  | .repeatedLiteral => utf8 "RLE literal missing"
  | .outOfBits => utf8 "literals Huffman stream out of bits"
  | .mode => utf8 "invalid symbol compression mode"
  | .missingTable => utf8 "missing repeat sequence FSE table"
  | .lengthSymbol => utf8 "FSE baseline symbol overflow"
  | .offsetSymbol => utf8 "FSE offset symbol overflow"
  | .unusedBytes => utf8 "extraneous data after no sequences"
  | .unusedBits => utf8 "extraneous data after sequences"
  | .outputSize => utf8 "uncompressed size too big"
  | .literalCount => utf8 "literal byte overflow"
  | .zeroOffset => utf8 "invalid zero offset"
  | .farOffset => utf8 "offset past window"

inductive Failure
  /-- At a number of bytes from the start, of a block or of the stream. -/
  | located (offset : Nat) (cause : Cause)
  /-- The stream breaks off in the weights of a code, and no place is told. -/
  | cutInWeights
  /-- The stream ends between frames. The flag tells whether it has given any bytes. -/
  | ended (gave : Bool)
  deriving DecidableEq, Repr

namespace Failure

/-- A failure in a block as seen from the start of the stream. -/
def shift (base : Nat) : Failure → Failure
  | .located offset cause => .located (base + offset) cause
  | failure => failure

def text : Failure → Bytes
  | .located offset cause =>
    utf8 "zstd decompression error at " ++ Bytes.ofNat offset ++ utf8 ": " ++ cause.text
  | .cutInWeights | .ended true => utf8 "unexpected EOF"
  | .ended false => utf8 "EOF"

end Failure

def failAt (offset : Nat) (cause : Cause) : Except Failure α := .error (.located offset cause)

end Zstandard
end StackBound
