import StackBound.Number.Binary

/-! Spans of time in nanoseconds, and how they are written: `1h30m0s`, `1.5ms`. -/
namespace StackBound

abbrev Duration := Int64

namespace Duration

/-- The bytes of a unit and its nanoseconds. -/
def units : List (Bytes × Nat) :=
  [(utf8 "ns", 1), (utf8 "us", 1000), (utf8 "µs", 1000), (utf8 "μs", 1000),
   (utf8 "ms", 1000000), (utf8 "s", 1000000000), (utf8 "m", 60000000000),
   (utf8 "h", 3600000000000)]

def unit? (word : Bytes) : Option Nat := units.lookup word

/-- The nanoseconds of the longest span, which is a negative one. -/
def longest : Nat := Nat.pow 2 63

/-- The digits of a fraction that count, with their number: they stop before they pass 63 bits. -/
def fraction (digits : Bytes) : Nat × Nat :=
  let (value, places, _) := digits.foldl (fun (state : Nat × Nat × Bool) b =>
    let (value, places, full) := state
    if full ∨ (longest - 1) / 10 < value ∨ longest < 10 * value + Bytes.digit b then
      (value, places, true)
    else (10 * value + Bytes.digit b, places + 1, false)) (0, 0, false)
  (value, places)

/-- Nanoseconds of a fraction of a unit, in 53-bit arithmetic: the unit is divided by the power of
ten, and the digits are multiplied by the quotient. -/
def fractionOf (unit : Nat) (digits : Bytes) : Nat :=
  let (value, places) := fraction digits
  if value = 0 then 0
  else ((Number.Binary.nearest value 1).mul ((Number.Binary.finite unit 1).div (.tenPow places))).floor

def isNumeral (b : UInt8) : Bool := Bytes.isDigit b || b == 46

def term? (text : Bytes) : Option (Nat × Bytes) := do
  let (whole, rest) := text.span Bytes.isDigit
  let (places, rest) := match rest with
    | 46 :: rest => rest.span Bytes.isDigit
    | rest => ([], rest)
  guard (whole ++ places ≠ [])
  let (word, rest) := rest.span (!isNumeral ·)
  let unit ← unit? word
  let value := Bytes.natOfDigits whole
  guard (value ≤ longest / unit)
  let total := value * unit + fractionOf unit places
  guard (total ≤ longest)
  return (total, rest)

/-- Adds up numbers with units until the text ends, modulo 2^64; no sum may exceed the longest span. -/
def sum? : Nat → Nat → Bytes → Option Nat
  | _, total, [] => some total
  | 0, _, _ :: _ => none
  | fuel + 1, total, text => do
    let (n, rest) ← term? text
    let total := (total + n) % UInt64.size
    guard (total ≤ longest)
    sum? fuel total rest

/-- Reads a sign and one or more numbers with units. Zero alone needs no unit. -/
def parse? (text : Bytes) : Option Duration :=
  let (negative, body) := match text with
    | 45 :: body => (true, body)
    | 43 :: body => (false, body)
    | body => (false, body)
  if body = [48] then some 0
  else if body = [] then none
  else do
    let n ← sum? body.length 0 body
    Bytes.int64? (if negative then -n else n)

def point (places n : Nat) : Bytes :=
  let written := Bytes.ofNat n
  let padded := List.replicate (places - written.length) 48 ++ written
  match (padded.reverse.dropWhile (· == 48)).reverse with
  | [] => []
  | digits => 46 :: digits

def ofNat (n : Nat) : Bytes :=
  let scaled (places : Nat) (word : String) : Bytes :=
    Bytes.ofNat (n / Nat.pow 10 places) ++ point places (n % Nat.pow 10 places) ++ utf8 word
  if n = 0 then utf8 "0s"
  else if n < 1000 then scaled 0 "ns"
  else if n < 1000000 then scaled 3 "µs"
  else if n < 1000000000 then scaled 6 "ms"
  else
    let seconds := n / 1000000000
    let tail := Bytes.ofNat (seconds % 60) ++ point 9 (n % 1000000000) ++ utf8 "s"
    let minutes := seconds / 60
    if minutes = 0 then tail
    else if minutes / 60 = 0 then Bytes.ofNat minutes ++ utf8 "m" ++ tail
    else Bytes.ofNat (minutes / 60) ++ utf8 "h" ++ Bytes.ofNat (minutes % 60) ++ utf8 "m" ++ tail

/-- The longest units that fit, down to seconds; less than a second is one unit with a fraction. -/
def text (d : Duration) : Bytes :=
  if d < 0 then utf8 "-" ++ ofNat d.toInt.natAbs else ofNat d.toInt.natAbs

end Duration
end StackBound
