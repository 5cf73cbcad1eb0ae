import StackBound.Number.Binary
import StackBound.Text.Utf8

/-! The literals of TOML: strings, numbers and dates, read from the front of a text. -/
namespace StackBound
namespace Toml

def isGap (b : UInt8) : Bool := b == 32 || b == 9

def newline : UInt8 := 10
def quote : UInt8 := 34
def apostrophe : UInt8 := 39
def backslash : UInt8 := 92

def isLineEnd (b : UInt8) : Bool := b == 10 || b == 13

def isHexDigit (b : UInt8) : Bool :=
  Bytes.isDigit b || (97 ≤ b && b ≤ 102) || (65 ≤ b && b ≤ 70)

def hexValue (b : UInt8) : Nat :=
  if b ≤ 57 then b.toNat - 48 else if b ≤ 70 then b.toNat - 55 else b.toNat - 87

def natOfBase (base : Nat) (digits : Bytes) : Nat :=
  digits.foldl (fun n b => base * n + hexValue b) 0

/-! ### Strings -/

def codePoint? (width : Nat) (text : Bytes) : Option Bytes :=
  let digits := text.take width
  let n := natOfBase 16 digits
  if digits.length = width ∧ digits.all isHexDigit ∧ n.isValidChar then
    some (String.utf8EncodeChar (Char.ofNat n))
  else none

def escape? (text : Bytes) : Option (Bytes × Nat) :=
  match text with
  | 98 :: _ => some ([8], 1)
  | 116 :: _ => some ([9], 1)
  | 110 :: _ => some ([10], 1)
  | 102 :: _ => some ([12], 1)
  | 114 :: _ => some ([13], 1)
  | 34 :: _ => some ([34], 1)
  | 92 :: _ => some ([92], 1)
  | 117 :: rest => (codePoint? 4 rest).map (·, 5)
  | 85 :: rest => (codePoint? 8 rest).map (·, 9)
  | _ => none

/-- Whether a backslash may stand before a text: it starts an escape, or only space follows it on its
line. -/
def fitsBackslash (text : Bytes) : Bool :=
  (escape? text).isSome || text.head?.elim false fun b => isGap b || isLineEnd b

/-- Replaces every escape; the bytes done stand last first, and some are still to be skipped. -/
def unescapeOnto (done : Bytes) : Nat → Bytes → Option Bytes
  | _, [] => some done.reverse
  | skip + 1, _ :: rest => unescapeOnto done skip rest
  | 0, b :: rest =>
    if b = backslash then
      match escape? rest with
      | none => none
      | some (bytes, used) => unescapeOnto (bytes.reverse ++ done) used rest
    else unescapeOnto (b :: done) 0 rest

def unescape? (text : Bytes) : Option Bytes := unescapeOnto [] 0 text

def closed? (mark : UInt8) (escapes : Bool) (taken : Bytes) : Bytes → Option (Bytes × Bytes)
  | [] => none
  | b :: rest =>
    if b = mark then some (taken.reverse, rest)
    else if isLineEnd b then none
    else if escapes ∧ b = backslash then
      match rest with
      | [] => none
      | c :: rest => if isLineEnd c then none else closed? mark escapes (c :: b :: taken) rest
    else closed? mark escapes (b :: taken) rest

/-- The text up to three closing marks, and what follows them. One or two further marks may stand
before the closing ones; `run` counts the marks just passed, and `slash` tells whether a backslash
stands before them. -/
def closedBlock? (mark : UInt8) (escapes : Bool) (run : Nat) (slash : Bool) (skip : Bool)
    (taken : Bytes) : Bytes → Option (Bytes × Bytes)
  | [] => none
  | b :: rest =>
    let run' := if b = mark then run + 1 else 0
    let slash' := if b = mark then slash else b = backslash
    if skip then closedBlock? mark escapes run' slash' false (b :: taken) rest
    else if escapes ∧ b = backslash then
      if fitsBackslash rest then closedBlock? mark escapes run' slash' true (b :: taken) rest
      else none
    else if b = mark ∧ rest.take 2 = [mark, mark] then
      if (rest.drop 2).head? = some mark then
        if 5 ≤ run + 3 ∧ ¬ (escapes ∧ run + 3 = 5 ∧ slash) then none
        else closedBlock? mark escapes run' slash' false (b :: taken) rest
      else some (taken.reverse, rest.drop 2)
    else closedBlock? mark escapes run' slash' false (b :: taken) rest

/-- A line end right after the opening marks does not belong to the text. -/
def withoutFirstLineEnd : Bytes → Bytes
  | 10 :: rest => rest
  | 13 :: 10 :: rest => rest
  | text => text

def isFiller (b : UInt8) : Bool := isGap b || isLineEnd b

/-- Takes away each backslash that ends a line, with the line end and all space after it. -/
def joinLinesOnto (done : Bytes) : Nat → Bytes → Bytes
  | _, [] => done.reverse
  | skip + 1, _ :: rest => joinLinesOnto done skip rest
  | 0, b :: rest =>
    if b = backslash then
      let gap := rest.takeWhile isFiller
      if rest.head? = some backslash then joinLinesOnto (backslash :: b :: done) 1 rest
      else if gap.contains newline then joinLinesOnto done gap.length rest
      else joinLinesOnto (b :: done) 0 rest
    else joinLinesOnto (b :: done) 0 rest

def joinLines (text : Bytes) : Bytes := joinLinesOnto [] 0 text

def lineString? (mark : UInt8) (text : Bytes) : Option (Bytes × Bytes) := do
  let (raw, rest) ← closed? mark (mark = quote) [] text
  if mark = quote then return (← unescape? raw, rest) else return (raw, rest)

def blockString? (mark : UInt8) (text : Bytes) : Option (Bytes × Bytes) := do
  let (raw, rest) ← closedBlock? mark (mark = quote) 0 false false [] text
  let raw := withoutFirstLineEnd raw
  if mark = quote then return (← unescape? (joinLines raw), rest) else return (raw, rest)

def string? (mark : UInt8) (text : Bytes) : Option (Bytes × Bytes) :=
  match text with
  | b :: c :: rest =>
    if b = mark ∧ c = mark then blockString? mark rest else lineString? mark text
  | _ => lineString? mark text

/-! ### Numbers -/

/-- Every underscore stands between digits, and the last character is a digit. -/
def underscoresFit (text : Bytes) : Bool :=
  let (ok, digit) := text.foldl (fun (state : Bool × Bool) b =>
    (state.1 && (b != 95 || state.2), isHexDigit b)) (true, false)
  ok && digit

def isBaseLetter (b : UInt8) : Bool := b == 98 || b == 111 || b == 120

def hasLeadingZero (text : Bytes) : Bool :=
  match text with
  | 48 :: b :: _ => !isBaseLetter b
  | 45 :: 48 :: _ :: _ | 43 :: 48 :: _ :: _ => true
  | _ => false

def withoutUnderscores (text : Bytes) : Bytes := text.filter (· != 95)

def integer? (text : Bytes) : Option Int64 :=
  if !underscoresFit text ∨ hasLeadingZero text then none
  else match withoutUnderscores text with
    | 48 :: 98 :: digits => Bytes.int64? (natOfBase 2 digits)
    | 48 :: 111 :: digits => Bytes.int64? (natOfBase 8 digits)
    | 48 :: 120 :: digits => Bytes.int64? (natOfBase 16 digits)
    | plain => plain.toInt64?

def isFloatMark (b : UInt8) : Bool := b == 46 || b == 101 || b == 69

/-- Every point is followed by a digit. -/
def pointsFit : Bytes → Bool
  | [] => true
  | 46 :: rest => (rest.head?.elim false Bytes.isDigit) && pointsFit rest
  | _ :: rest => pointsFit rest

def floatParts (text : Bytes) : List Bytes :=
  (Bytes.split 46 (text.map fun b => if isFloatMark b then 46 else b)).filter (· ≠ [])

/-- Whether a numeral is a float that is not too large. -/
def isFloat (text : Bytes) : Bool :=
  let parts := floatParts text
  let unsigned := match withoutUnderscores text with
    | 43 :: rest | 45 :: rest => rest
    | rest => rest
  parts.all underscoresFit && !(parts.head?.elim false hasLeadingZero) && pointsFit text &&
    match Number.Decimal.ofText? unsigned with
    | some d => d.toBinary ≠ .infinite
    | none => false

/-! ### Dates -/

def isDateByte (b : UInt8) : Bool :=
  Bytes.isDigit b || b == 45 || b == 58 || b == 84 || b == 116 || b == 32 || b == 46 ||
    b == 90 || b == 122 || b == 43

def digits? (width : Nat) (text : Bytes) : Option (Nat × Bytes) :=
  let digits := text.take width
  if digits.length = width ∧ digits.all Bytes.isDigit then
    some (Bytes.natOfDigits digits, text.drop width)
  else none

def isLeapYear (year : Nat) : Bool := year % 4 = 0 && (year % 100 ≠ 0 || year % 400 = 0)

def daysIn (year month : Nat) : Nat :=
  if month = 2 then (if isLeapYear year then 29 else 28)
  else if month = 4 ∨ month = 6 ∨ month = 9 ∨ month = 11 then 30 else 31

def date? (text : Bytes) : Option Bytes := do
  let (year, text) ← digits? 4 text
  let text ← text.after? (utf8 "-")
  let (month, text) ← digits? 2 text
  let text ← Bytes.after? text (utf8 "-")
  let (day, text) ← digits? 2 text
  guard (1 ≤ month ∧ month ≤ 12 ∧ 1 ≤ day ∧ day ≤ daysIn year month)
  return text

def time? (text : Bytes) : Option Bytes := do
  let (hour, text) ← digits? 2 text
  let text ← Bytes.after? text (utf8 ":")
  let (minute, text) ← digits? 2 text
  let text ← Bytes.after? text (utf8 ":")
  let (second, text) ← digits? 2 text
  guard (hour < 24 ∧ minute < 60 ∧ second < 60)
  match text with
  | 46 :: d :: rest => if Bytes.isDigit d then return rest.dropWhile Bytes.isDigit else return text
  | _ => return text

def zone? (text : Bytes) : Option Bytes :=
  match text with
  | 90 :: rest => some rest
  | 43 :: rest | 45 :: rest => do
    let (hour, rest) ← digits? 2 rest
    let rest ← Bytes.after? rest (utf8 ":")
    let (minute, rest) ← digits? 2 rest
    guard (hour ≤ 24 ∧ minute ≤ 60)
    return rest
  | _ => none

/-- Whether a text is a date, a time, or both with or without a zone. -/
def isDate (text : Bytes) : Bool :=
  let text := text.map fun b => if b = 122 then 90 else if b = 116 ∨ b = 32 then 84 else b
  let ends (rest : Option Bytes) : Bool := rest = some []
  let moment := (date? text).bind fun rest => (Bytes.after? rest (utf8 "T")).bind time?
  ends (moment.bind zone?) || ends moment || ends (date? text) || ends (time? text)

end Toml
end StackBound
