import StackBound.Text.Bytes

/-! Numbers with 53 significant bits, as exact fractions. Arithmetic is done on natural numbers and
then rounded to the nearest such number, ties to the even one. -/
namespace StackBound
namespace Number

/-- A quotient rounded to the nearest integer, a half to the even neighbour. -/
def roundDiv (num den : Nat) : Nat :=
  let q := num / den
  let twice := 2 * (num % den)
  if twice < den then q
  else if den < twice then q + 1
  else if q % 2 = 0 then q else q + 1

/-- A non-negative binary number: a whole number times or over a power of two, or beyond all. -/
inductive Binary
  | finite (num den : Nat)
  | infinite
  deriving DecidableEq, Repr

namespace Binary

/-- The exponent that gives a fraction 53 bits before the point, at least -1074. -/
def exponent (num den : Nat) : Int :=
  let guess : Int := (Nat.log2 num : Int) - Nat.log2 den - 52
  let below : Bool :=
    if 0 ≤ guess then num < den * Nat.pow 2 (52 + guess.toNat)
    else num * Nat.pow 2 (-guess).toNat < den * Nat.pow 2 52
  max (-1074) (if below then guess - 1 else guess)

def nearest (num den : Nat) : Binary :=
  if num = 0 then .finite 0 1
  else
    let e := exponent num den
    if 0 ≤ e then
      let whole := roundDiv num (den * Nat.pow 2 e.toNat) * Nat.pow 2 e.toNat
      if Nat.pow 2 1024 ≤ whole then .infinite else .finite whole 1
    else .finite (roundDiv (num * Nat.pow 2 (-e).toNat) den) (Nat.pow 2 (-e).toNat)

def isZero : Binary → Bool
  | .finite num _ => num = 0
  | .infinite => false

def floor : Binary → Nat
  | .finite num den => num / den
  | .infinite => 0

def mul : Binary → Binary → Binary
  | .finite a b, .finite c d => nearest (a * c) (b * d)
  | _, _ => .infinite

/-- The quotient; it is zero if the divisor is infinite. -/
def div : Binary → Binary → Binary
  | .finite a b, .finite c d => nearest (a * d) (b * c)
  | _, .infinite => .finite 0 1
  | .infinite, _ => .infinite

def tenPow : Nat → Binary
  | 0 => .finite 1 1
  | k + 1 => (tenPow k).mul (.finite 10 1)

/-- The exact value with the given number of decimal places, a half to the even neighbour. -/
def fixed (places : Nat) : Binary → Bytes
  | .infinite => utf8 "+Inf"
  | .finite num den =>
    let digits := Bytes.ofNat (roundDiv (num * Nat.pow 10 places) den)
    let padded := List.replicate (places + 1 - digits.length) 48 ++ digits
    if places = 0 then padded
    else padded.take (padded.length - places) ++ [46] ++ padded.drop (padded.length - places)

end Binary

structure Decimal where
  digits : Nat
  exponent : Int
  deriving DecidableEq, Repr

namespace Decimal

/-- Beyond this many places in either direction a number is infinite or zero. -/
def reach : Int := 400

def toBinary (d : Decimal) : Binary :=
  let magnitude : Int := d.exponent + (Nat.toDigits 10 d.digits).length
  if d.digits = 0 ∨ magnitude < -reach then .finite 0 1
  else if reach < magnitude then .infinite
  else if 0 ≤ d.exponent then .nearest (d.digits * Nat.pow 10 d.exponent.toNat) 1
  else .nearest d.digits (Nat.pow 10 (-d.exponent).toNat)

def ofPlain? (text : Bytes) : Option Decimal :=
  let whole := text.takeWhile Bytes.isDigit
  let rest := text.dropWhile Bytes.isDigit
  let fraction? := match rest with
    | [] => some []
    | 46 :: fraction => some fraction
    | _ => none
  match fraction? with
  | none => none
  | some fraction =>
    if fraction.all Bytes.isDigit ∧ whole ++ fraction ≠ [] then
      some ⟨Bytes.natOfDigits (whole ++ fraction), -fraction.length⟩
    else none

def ofText? (text : Bytes) : Option Decimal :=
  let isMark (b : UInt8) : Bool := b == 101 || b == 69
  match text.span (!isMark ·) with
  | (plain, []) => ofPlain? plain
  | (plain, _ :: power) => do
    let d ← ofPlain? plain
    let (sign, digits) := match power with
      | 43 :: digits => ((1 : Int), digits)
      | 45 :: digits => (-1, digits)
      | digits => (1, digits)
    guard (digits ≠ [] ∧ digits.all Bytes.isDigit)
    return { d with exponent := d.exponent + sign * min (Bytes.natOfDigits digits) 100000 }

end Decimal
end Number
end StackBound
