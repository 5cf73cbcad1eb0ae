/-! Text is kept as the bytes it arrives in. Function names, paths and file contents need not be
well-formed UTF-8, so equality, order and search are bytewise throughout the library. -/
namespace StackBound

abbrev Bytes := List UInt8

def utf8 (s : String) : Bytes := s.toList.flatMap String.utf8EncodeChar

namespace Bytes

/-- The parts of a text between occurrences of a byte; there is always at least one part. -/
def split (sep : UInt8) (text : Bytes) : List Bytes :=
  text.foldr (fun b parts =>
    if b = sep then [] :: parts
    else match parts with
      | [] => [[b]]
      | part :: more => (b :: part) :: more) [[]]

def join (sep : Bytes) (parts : List Bytes) : Bytes := sep.intercalate parts

def after? : Bytes → Bytes → Option Bytes
  | text, [] => some text
  | [], _ :: _ => none
  | b :: text, a :: start => if a = b then after? text start else none

def startsWith (text start : Bytes) : Bool := (text.after? start).isSome

def endsWith (text ending : Bytes) : Bool := startsWith text.reverse ending.reverse

/-- Whether a text occurs somewhere in another. -/
def occursIn (part : Bytes) : Bytes → Bool
  | [] => part.isEmpty
  | b :: rest => startsWith (b :: rest) part || occursIn part rest

/-- The longest run of accepted bytes and the rest, if the run is not empty. -/
def run? (accept : UInt8 → Bool) (text : Bytes) : Option (Bytes × Bytes) :=
  match text.span accept with
  | ([], _) => none
  | found => some found

def le (a b : Bytes) : Bool := decide (a ≤ b)

def sorted (texts : List Bytes) : List Bytes := texts.mergeSort le

def compact : List Bytes → List Bytes
  | [] => []
  | a :: rest =>
    (rest.foldl (fun (kept : Bytes × List Bytes) b =>
      if kept.1 = b then kept else (b, b :: kept.2)) (a, [a])).2.reverse

def sortedSet (texts : List Bytes) : List Bytes := compact (sorted texts)

def isDigit (b : UInt8) : Bool := 48 ≤ b && b ≤ 57

def digit (b : UInt8) : Nat := b.toNat - 48

def natOfDigits (digits : Bytes) : Nat := digits.foldl (fun n b => 10 * n + digit b) 0

def ofNat (n : Nat) : Bytes := (Nat.toDigits 10 n).map fun c => c.toNat.toUInt8

def ofInt : Int → Bytes
  | .ofNat n => ofNat n
  | .negSucc n => 45 :: ofNat (n + 1)

def ofInt64 (n : Int64) : Bytes := ofInt n.toInt

def int64? (n : Int) : Option Int64 :=
  if Int64.minValue.toInt ≤ n ∧ n ≤ Int64.maxValue.toInt then some (Int64.ofInt n) else none

/-- Reads an optional sign and one or more decimal digits as a 64-bit number. -/
def toInt64? (text : Bytes) : Option Int64 :=
  let number (digits : Bytes) (sign : Int) :=
    if digits ≠ [] ∧ digits.all isDigit then int64? (sign * natOfDigits digits) else none
  match text with
  | 43 :: digits => number digits 1
  | 45 :: digits => number digits (-1)
  | digits => number digits 1

def hexDigit (n : Nat) : UInt8 := (if n < 10 then 48 + n else 87 + n).toUInt8

def hex (width n : Nat) : Bytes :=
  (List.range width).reverse.map fun i => hexDigit (n / Nat.pow 16 i % 16)

def spaces (n : Nat) : Bytes := List.replicate n 32

end Bytes
end StackBound
