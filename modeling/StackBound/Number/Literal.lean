import StackBound.Text.Quoted

/-! Integers and truth values as they are written on a command line. An integer may have a sign, the
prefix `0x`, `0o` or `0b`, or a leading zero for base eight, and underscores between its digits. -/
namespace StackBound
namespace Number

inductive Misread
  | syntactic
  | range
  deriving DecidableEq, Repr

def Misread.text : Misread → Bytes
  | .syntactic => utf8 "invalid syntax"
  | .range => utf8 "value out of range"

def underscore : UInt8 := 95

def digitValue? (b : UInt8) : Option Nat :=
  if Bytes.isDigit b then some (Bytes.digit b)
  else if 97 ≤ b && b ≤ 122 then some (b.toNat - 87)
  else if 65 ≤ b && b ≤ 90 then some (b.toNat - 55)
  else none

def lower (b : UInt8) : UInt8 := if 65 ≤ b && b ≤ 90 then b + 32 else b

def baseOf? (letter : UInt8) : Option Nat :=
  [((98 : UInt8), 2), (111, 8), (120, 16)].lookup (lower letter)

def based (numeral : Bytes) : Nat × Bytes :=
  match numeral with
  | 48 :: letter :: digit :: rest =>
    match baseOf? letter with
    | some base => (base, digit :: rest)
    | none => (8, letter :: digit :: rest)
  | 48 :: rest => (8, rest)
  | digits => (10, digits)

/-- Reads digits up to the first that is none or that makes the number too large for 64 bits. -/
def magnitude (base : Nat) (n : Nat) : Bytes → Except Misread Nat
  | [] => .ok n
  | b :: rest =>
    if b = underscore then magnitude base n rest
    else match digitValue? b with
      | none => .error .syntactic
      | some d =>
        if base ≤ d then .error .syntactic
        else if UInt64.size ≤ n * base + d then .error .range
        else magnitude base (n * base + d) rest

/-- Each underscore stands between digits, or between a prefix and a digit. -/
def wellSpaced (afterDigit : Bool) : Bytes → Bool
  | [] => true
  | b :: rest =>
    if b = underscore then afterDigit && !rest.isEmpty && wellSpaced false rest
    else wellSpaced true rest

def underscoresFit (numeral : Bytes) : Bool :=
  match numeral with
  | 48 :: letter :: rest => wellSpaced true (if (baseOf? letter).isSome then rest else letter :: rest)
  | digits => wellSpaced false digits

def integer (text : Bytes) : Except Misread Int64 :=
  let (negative, numeral) := match text with
    | 43 :: numeral => (false, numeral)
    | 45 :: numeral => (true, numeral)
    | numeral => (false, numeral)
  if numeral = [] then .error .syntactic
  else
    let (base, digits) := based numeral
    match magnitude base 0 digits with
    | .error misread => .error misread
    | .ok n =>
      if numeral.contains underscore && !underscoresFit numeral then .error .syntactic
      else match Bytes.int64? (if negative then -n else n) with
        | some n => .ok n
        | none => .error .range

def truth? (text : Bytes) : Option Bool :=
  if (["1", "t", "T", "TRUE", "true", "True"].map utf8).contains text then some true
  else if (["0", "f", "F", "FALSE", "false", "False"].map utf8).contains text then some false
  else none

end Number
end StackBound
