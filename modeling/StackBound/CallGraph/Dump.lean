import StackBound.Fault
import StackBound.Text.Blank
import StackBound.Text.Lines
import StackBound.Symbol

/-! Call-graph dumps. A definition line gives a symbol's identifier and name, and the next `Calls:`
line lists the identifiers it calls:

    sensor_read/3 (sensor_read)
      Calls: crc8/5

A definition that is followed by another definition before any `Calls:` line has no list. -/
namespace StackBound
namespace CallGraph

structure Definition where
  id : Bytes
  name : Name
  deriving DecidableEq, Repr

structure CallList where
  caller : Name
  refs : List Bytes
  deriving DecidableEq, Repr

structure Dump where
  definitions : List Definition
  calls : List CallList
  deriving DecidableEq, Repr

namespace Dump

/-- Letters, digits, underscore, dot and hyphen. -/
def isSymbolByte (b : UInt8) : Bool :=
  (97 ≤ b && b ≤ 122) || (65 ≤ b && b ≤ 90) || Bytes.isDigit b || b == 95 || b == 46 || b == 45

/-- Tab, newline, form feed, carriage return and space. -/
def isGap (b : UInt8) : Bool := b == 9 || b == 10 || b == 12 || b == 13 || b == 32

/-- A line that starts with `stem/number (name)`, with space before the parenthesis. -/
def definition? (line : Bytes) : Option Definition := do
  let (stem, rest) ← Bytes.run? isSymbolByte line
  let rest ← Bytes.after? rest (utf8 "/")
  let (number, rest) ← Bytes.run? Bytes.isDigit rest
  let (_, rest) ← Bytes.run? isGap rest
  let rest ← Bytes.after? rest (utf8 "(")
  let (name, rest) ← Bytes.run? isSymbolByte rest
  let _ ← Bytes.after? rest (utf8 ")")
  return ⟨stem ++ utf8 "/" ++ number, name⟩

def calls? (line : Bytes) : Option (List Bytes) :=
  (Bytes.after? (line.dropWhile isGap) (utf8 "Calls:")).map fun rest =>
    Bytes.fields (rest.dropWhile isGap)

/-- A scan in progress: what was found, last first, and the definition whose list is awaited. -/
structure Scan where
  definitions : List Definition
  calls : List CallList
  current : Option Name

def Scan.step (s : Scan) (line : Bytes) : Scan :=
  match definition? line with
  | some d => { s with definitions := d :: s.definitions, current := some d.name }
  | none =>
    match s.current with
    | none => s
    | some caller =>
      match calls? line with
      | none => s
      | some refs => { s with calls := ⟨caller, refs⟩ :: s.calls, current := none }

def ofLines (lines : List Bytes) : Dump :=
  let s := lines.foldl Scan.step ⟨[], [], none⟩
  ⟨s.definitions.reverse, s.calls.reverse⟩

def lineLimit : Nat := 4194304

def parse (content : Bytes) : Except Fault Dump :=
  let lines := Lines.ofContent lineLimit content
  if lines.tooLong then .error (.during (utf8 "read") .lineTooLong)
  else .ok (ofLines lines.read)

end Dump
end CallGraph
end StackBound
