import StackBound.Number.Binary

/-! The root element of a vector drawing. It is replaced by one whose size is the drawing's own, so
that the drawing scales to the place where it is shown. -/
namespace StackBound
namespace ViewBox

open Number (Binary Decimal)

/-- Tab, newline, form feed, carriage return and space. -/
def isGap (b : UInt8) : Bool := b == 9 || b == 10 || b == 12 || b == 13 || b == 32

def isNumeral (b : UInt8) : Bool := Bytes.isDigit b || b == 46

def at? (text : Bytes) : Option (Bytes × Bytes) := do
  let rest ← text.after? (utf8 "viewBox=\"")
  let (_, rest) ← Bytes.run? isNumeral rest
  let (_, rest) ← Bytes.run? isGap rest
  let (_, rest) ← Bytes.run? isNumeral rest
  let (_, rest) ← Bytes.run? isGap rest
  let (width, rest) ← Bytes.run? isNumeral rest
  let (_, rest) ← Bytes.run? isGap rest
  let (height, rest) ← Bytes.run? isNumeral rest
  let _ ← Bytes.after? rest (utf8 "\"")
  return (width, height)

def find? : Bytes → Option (Bytes × Bytes)
  | [] => none
  | b :: rest =>
    match at? (b :: rest) with
    | some box => some box
    | none => find? rest

/-- A length; what is no number counts as nothing. -/
def length (numeral : Bytes) : Binary :=
  match Decimal.ofPlain? numeral with
  | some d => d.toBinary
  | none => .finite 0 1

def element (width height : Binary) : Bytes :=
  utf8 "<svg xmlns=\"http://www.w3.org/2000/svg\" viewBox=\"0 0 " ++ width.fixed 2 ++ utf8 " " ++
    height.fixed 2 ++ utf8 "\" width=\"" ++ width.fixed 0 ++ utf8 "\" height=\"" ++ height.fixed 0 ++
    utf8 "\">"

def close : UInt8 := 62

def tail? (text : Bytes) : Option Nat :=
  if text.startsWith (utf8 "<svg") ∧ text.contains close then
    some (text.takeWhile (· != close)).length
  else none

/-- Puts an element in place of every one in a text, adding to what is already written, last first,
and after skipping bytes that are accounted for. -/
def replace (element : Bytes) (written : Bytes) : Nat → Bytes → Bytes
  | _, [] => written.reverse
  | skip + 1, _ :: rest => replace element written skip rest
  | 0, b :: rest =>
    match tail? (b :: rest) with
    | some more => replace element (element.reverse ++ written) more rest
    | none => replace element (b :: written) 0 rest

/-- The drawing with a root element of its own size. A drawing without extent stays as it is. -/
def normalize (svg : Bytes) : Bytes :=
  match find? svg with
  | none => svg
  | some (width, height) =>
    if (length width).isZero ∨ (length height).isZero then svg
    else replace (element (length width) (length height)) [] 0 svg

end ViewBox
end StackBound
