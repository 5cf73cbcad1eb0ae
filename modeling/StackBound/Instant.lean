import StackBound.Duration

/-! Points in time, counted in nanoseconds from the start of the year 1, and their text:
`2001-09-09T01:46:40.0015Z`. -/
namespace StackBound

structure Instant where
  nanos : Int
  deriving DecidableEq, Repr

namespace Instant

/-- The start of the count, which stands for no time at all. -/
def zero : Instant := ⟨0⟩

def perSecond : Int := 1000000000

def ofUnix (nanos : Int) : Instant := ⟨62135596800 * perSecond + nanos⟩

def add (t : Instant) (d : Duration) : Instant := ⟨t.nanos + d.toInt⟩

def after (t u : Instant) : Bool := u.nanos < t.nanos

/-- The days from the start of the year 1 to the start of a year. -/
def daysBefore (year : Int) : Int :=
  let y := year - 1
  365 * y + y / 4 - y / 100 + y / 400

def isLeap (year : Int) : Bool := daysBefore (year + 1) - daysBefore year == 366

def monthLengths (year : Int) : List Int :=
  [31, if isLeap year then 29 else 28, 31, 30, 31, 30, 31, 31, 30, 31, 30, 31]

structure Civil where
  year : Int
  month : Nat
  day : Int
  time : Int
  deriving DecidableEq, Repr

def Civil.isDate (c : Civil) : Bool :=
  match (monthLengths c.year)[c.month - 1]? with
  | some length => 1 ≤ c.month && 1 ≤ c.day && c.day ≤ length
  | none => false

def perDay : Int := 86400 * perSecond

def ofCivil (c : Civil) : Instant :=
  let days := daysBefore c.year + ((monthLengths c.year).take (c.month - 1)).foldl (· + ·) 0 +
    c.day - 1
  ⟨days * perDay + c.time⟩

/-- The year in which a day lies: a guess by the mean length of a year is off by one at most. -/
def yearOf (days : Int) : Int :=
  let guess := days * 400 / 146097 + 1
  if days < daysBefore guess then guess - 1
  else if daysBefore (guess + 1) ≤ days then guess + 1
  else guess

def monthOf : Nat → List Int → Int → Nat × Int
  | month, length :: more, days =>
    if days < length then (month, days + 1) else monthOf (month + 1) more (days - length)
  | month, [], days => (month, days + 1)

def civil (t : Instant) : Civil :=
  let days := t.nanos / perDay
  let year := yearOf days
  let (month, day) := monthOf 1 (monthLengths year) (days - daysBefore year)
  ⟨year, month, day, t.nanos % perDay⟩

def padded (width : Nat) (n : Int) : Bytes :=
  let digits := Bytes.ofNat n.toNat
  List.replicate (width - digits.length) 48 ++ digits

/-- The text of an instant, with no more places than it needs. Years of other than four digits have no
text. -/
def text? (t : Instant) : Option Bytes :=
  let c := t.civil
  let seconds := c.time / perSecond
  if c.year < 0 ∨ 9999 < c.year then none
  else some <|
    padded 4 c.year ++ utf8 "-" ++ padded 2 c.month ++ utf8 "-" ++ padded 2 c.day ++ utf8 "T" ++
    padded 2 (seconds / 3600) ++ utf8 ":" ++ padded 2 (seconds / 60 % 60) ++ utf8 ":" ++
    padded 2 (seconds % 60) ++ Duration.point 9 (c.time % perSecond).toNat ++ utf8 "Z"

def digits? (least most : Nat) (text : Bytes) : Option (Nat × Bytes) :=
  let found := (text.take most).takeWhile Bytes.isDigit
  if found.length < least then none
  else some (Bytes.natOfDigits found, text.drop found.length)

/-- A point or comma with digits after it, as nanoseconds; nine digits count. -/
def places (text : Bytes) : Nat × Bytes :=
  match text with
  | mark :: rest =>
    let digits := rest.takeWhile Bytes.isDigit
    if (mark == 46 || mark == 44) && !digits.isEmpty then
      let counted := digits.take 9
      (Bytes.natOfDigits counted * Nat.pow 10 (9 - counted.length), rest.drop digits.length)
    else (0, text)
  | [] => (0, [])

def zone? (text : Bytes) : Option Int := do
  match text with
  | [90] => return 0
  | sign :: rest =>
    let sign ← if sign == 43 then some (1 : Int) else if sign == 45 then some (-1) else none
    let (hours, rest) ← digits? 2 2 rest
    let rest ← Bytes.after? rest (utf8 ":")
    let (minutes, rest) ← digits? 2 2 rest
    guard (rest = [] ∧ hours ≤ 24 ∧ minutes ≤ 60)
    return sign * (hours * 3600 + minutes * 60)
  | [] => none

/-- Reads a date, a time of the day and an offset. The hour may have a single digit. -/
def parse? (text : Bytes) : Option Instant := do
  let (year, text) ← digits? 4 4 text
  let (month, text) ← digits? 2 2 (← text.after? (utf8 "-"))
  let (day, text) ← digits? 2 2 (← Bytes.after? text (utf8 "-"))
  let (hour, text) ← digits? 1 2 (← Bytes.after? text (utf8 "T"))
  let (minute, text) ← digits? 2 2 (← Bytes.after? text (utf8 ":"))
  let (second, text) ← digits? 2 2 (← Bytes.after? text (utf8 ":"))
  let (nanos, text) := places text
  let ahead ← zone? text
  let date : Civil := ⟨year, month, day, (hour * 3600 + minute * 60 + second) * perSecond + nanos⟩
  guard (hour < 24 ∧ minute < 60 ∧ second < 60 ∧ date.isDate)
  return ⟨(ofCivil date).nanos - ahead * perSecond⟩

end Instant
end StackBound
