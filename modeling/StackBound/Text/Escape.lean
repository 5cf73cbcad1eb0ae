import StackBound.Text.Bytes

/-! What a terminal makes of a text byte by byte: most bytes are shown, and the rest are controls or
belong to sequences that steer it. -/
namespace StackBound
namespace Escape

inductive State
  /-- In none. -/
  | ground
  /-- Behind an escape. -/
  | escape
  | escapeMiddle
  /-- Behind the start of a control sequence. -/
  | control
  | controlParameters
  | controlMiddle
  /-- Behind the start of a device string. -/
  | device
  | deviceParameters
  | deviceMiddle
  | deviceText
  /-- In a command to the system. -/
  | command
  /-- In a string that nobody reads. -/
  | message
  deriving DecidableEq, Repr

inductive Effect
  | print
  | control
  /-- It belongs to a sequence, or to nothing. -/
  | silent
  /-- It starts a character beyond ASCII. -/
  | letter
  deriving DecidableEq, Repr

def bell : UInt8 := 0x07
def cancel : UInt8 := 0x18
def substitute : UInt8 := 0x1A
def escapeByte : UInt8 := 0x1B
def delete : UInt8 := 0x7F
def terminator : UInt8 := 0x9C

def isCancel (b : UInt8) : Bool := b == cancel || b == substitute

def isLow (b : UInt8) : Bool := b < 0x20

def isMiddle (b : UInt8) : Bool := 0x20 ≤ b && b ≤ 0x2F

def isParameter (b : UInt8) : Bool := 0x30 ≤ b && b ≤ 0x3F

def isLead (b : UInt8) : Bool := 0xC2 ≤ b && b ≤ 0xF4

/-- What a byte does wherever it stands, if no string takes it: the bytes beyond ASCII, the escape,
and what breaks off a sequence. -/
def anywhere (b : UInt8) : State × Effect :=
  if b = escapeByte then (.escape, .silent)
  else if b = 0x90 then (.device, .silent)
  else if b = 0x9B then (.control, .silent)
  else if b = 0x9D then (.command, .silent)
  else if b = 0x98 ∨ b = 0x9E ∨ b = 0x9F then (.message, .silent)
  else if isLead b then (.ground, .letter)
  else if b < 0xA0 then (.ground, .control)
  else (.ground, .silent)

def opened (b : UInt8) : State :=
  if b = 0x5B then .control
  else if b = 0x50 then .device
  else if b = 0x5D then .command
  else if b = 0x58 ∨ b = 0x5E ∨ b = 0x5F then .message
  else .ground

def State.ascii (s : State) (b : UInt8) : State × Effect :=
  match s with
  | .ground => (.ground, if isLow b ∨ b = delete then .control else .print)
  | .escape =>
    if isLow b then (s, .control) else if b = delete then (s, .silent)
    else if isMiddle b then (.escapeMiddle, .silent) else (opened b, .silent)
  | .escapeMiddle =>
    if isLow b then (s, .control) else if isMiddle b ∨ b = delete then (s, .silent)
    else (.ground, .silent)
  | .control | .controlParameters =>
    if isLow b then (s, .control) else if b = delete then (s, .silent)
    else if isMiddle b then (.controlMiddle, .silent)
    else if isParameter b then (.controlParameters, .silent) else (.ground, .silent)
  | .controlMiddle =>
    if isLow b then (s, .control) else if isMiddle b ∨ b = delete then (s, .silent)
    else (.ground, .silent)
  | .device =>
    if 0x08 ≤ b ∧ b ≤ 0x0D then (.deviceText, .silent)
    else if isLow b ∨ b = delete then (s, .silent)
    else if isMiddle b then (.deviceMiddle, .silent)
    else if isParameter b then (.deviceParameters, .silent) else (.deviceText, .silent)
  | .deviceParameters =>
    if isLow b ∨ b = delete ∨ isParameter b then (s, .silent)
    else if isMiddle b then (.deviceMiddle, .silent) else (.deviceText, .silent)
  | .deviceMiddle =>
    if isLow b ∨ b = delete ∨ isMiddle b then (s, .silent) else (.deviceText, .silent)
  | .command => (if b = bell then .ground else s, .silent)
  | .deviceText | .message => (s, .silent)

def State.next (s : State) (b : UInt8) : State × Effect :=
  match s with
  | .deviceText | .command =>
    if b = escapeByte then (.escape, .silent)
    else if isCancel b ∨ b = terminator then (.ground, .silent)
    else if b < 0x80 then s.ascii b else (s, .silent)
  | .message =>
    if isCancel b ∨ b = terminator then (.ground, .silent)
    else if b < 0x80 ∧ b ≠ escapeByte then s.ascii b else anywhere b
  | _ =>
    if s = .device ∧ b = escapeByte then (.deviceText, .silent)
    else if b < 0x80 ∧ b ≠ escapeByte ∧ !isCancel b then s.ascii b
    else anywhere b

end Escape
end StackBound
