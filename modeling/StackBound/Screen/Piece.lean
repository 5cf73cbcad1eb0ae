import StackBound.Screen.Pen
import StackBound.Text.Width

/-! The pieces of a text that must not be torn apart when it is broken into lines: clusters, controls,
and whole sequences. -/
namespace StackBound
namespace Screen

structure Link where
  parameters : Bytes
  target : Bytes
  deriving DecidableEq, Repr

namespace Link

def none : Link := ⟨[], []⟩

/-- The sequence that starts the text of a link. The one without a target ends it. -/
def text (l : Link) : Bytes :=
  utf8 "\x1B]8;" ++ l.parameters ++ utf8 ";" ++ l.target ++ [Escape.bell]

/-- Reads the body of a command: the command's number, and two texts. -/
def ofCommand? (body : Bytes) : Option Link :=
  let digits := body.takeWhile Bytes.isDigit
  match body.split Parameters.semicolon with
  | [_, parameters, target] =>
    if digits ≠ [] ∧ Bytes.natOfDigits digits = 8 then some ⟨parameters, target⟩ else Option.none
  | _ => Option.none

end Link

inductive Change
  | nothing
  | pen (parameters : List Parameter)
  | link (link : Link)
  deriving DecidableEq, Repr

structure Piece where
  bytes : Bytes
  width : Nat
  change : Change
  deriving DecidableEq, Repr

namespace Piece

inductive Opening
  | control
  | device
  | command
  | message
  /-- A control sequence or a string behind a longer escape. It changes nothing. -/
  | otherControl
  | otherText
  deriving DecidableEq, Repr

def Opening.isText : Opening → Bool
  | .command | .message | .otherText => true
  | .control | .device | .otherControl => false

/-- The length of a string and what it changes, given its body. It lasts to its terminator, or to
where it is broken off. -/
def string (opening : Opening) (body : Bytes) : Nat × Change :=
  let stops (b : UInt8) : Bool := b == Escape.escapeByte || b == Escape.terminator ||
    Escape.isCancel b || (b == Escape.bell && opening == .command)
  let text := body.takeWhile (!stops ·)
  let ending := match body.drop text.length with
    | [] => 0
    | 0x1B :: 0x5C :: _ => 2
    | b :: _ => if b == Escape.escapeByte || Escape.isCancel b then 0 else 1
  let change := match opening with
    | .command => ((Link.ofCommand? text).map Change.link).getD .nothing
    | _ => .nothing
  (text.length + ending, change)

def isPrivate (b : UInt8) : Bool := 0x3C ≤ b && b ≤ 0x3F

def isNumeric (b : UInt8) : Bool := 0x30 ≤ b && b ≤ 0x3B

def penByte : UInt8 := 0x6D

def controls (opening : Opening) (body : Bytes) : Nat × Change :=
  let marks := body.takeWhile isPrivate
  let rest := body.drop marks.length
  let parameters := rest.takeWhile isNumeric
  let rest := rest.drop parameters.length
  let middle := rest.takeWhile Escape.isMiddle
  let size := marks.length + parameters.length + middle.length
  match rest.drop middle.length with
  | [] => (size, .nothing)
  | b :: text =>
    if 0x40 ≤ b ∧ b ≤ 0x7E then
      match opening with
      | .device => (size + 1 + (string opening text).1, .nothing)
      | .control =>
        (size + 1, if b = penByte ∧ marks = [] ∧ middle = [] then
          .pen (Parameters.ofText parameters) else .nothing)
      | _ => (size + 1, .nothing)
    else (size, .nothing)

def sequence (opening : Opening) (body : Bytes) : Nat × Change :=
  if opening.isText then string opening body else controls opening body

def escaped (rest : Bytes) : Nat × Change :=
  let middle := rest.takeWhile Escape.isMiddle
  match rest.drop middle.length with
  | [] => (middle.length, .nothing)
  | b :: body =>
    let inside (opening : Opening) : Nat × Change :=
      let (size, change) := sequence opening body
      (middle.length + 1 + size, change)
    match Escape.opened b with
    | .control => inside (if middle = [] then .control else .otherControl)
    | .device => inside (if middle = [] then .device else .otherControl)
    | .command => inside (if middle = [] then .command else .otherText)
    | .message => inside .message
    | _ => if 0x30 ≤ b ∧ b ≤ 0x7E then (middle.length + 1, .nothing) else (middle.length, .nothing)

def opening? (b : UInt8) : Option Opening :=
  if b = 0x9B then some .control
  else if b = 0x90 then some .device
  else if b = 0x9D then some .command
  else if b = 0x98 ∨ b = 0x9E ∨ b = 0x9F then some .message
  else none

/-- The width of the piece that a byte starts, how many of the following bytes it takes, and what it
changes. -/
def measure (b : UInt8) (rest : Bytes) : Nat × Nat × Change :=
  if b = Escape.escapeByte then (0, escaped rest)
  else match opening? b with
    | some opening => (0, sequence opening rest)
    | none =>
      if 0x20 ≤ b ∧ b < 0x7F then (1, 0, .nothing)
      else if b < 0xC0 then (0, 0, .nothing)
      else
        let (width, more) := Cluster.measure b rest
        (width, more, .nothing)

/-- Adds the pieces of a text to those found, after skipping bytes that are accounted for. -/
def collect (found : List Piece) : Nat → Bytes → List Piece
  | _, [] => found.reverse
  | skip + 1, _ :: rest => collect found skip rest
  | 0, b :: rest =>
    let (width, more, change) := measure b rest
    collect (⟨b :: rest.take more, width, change⟩ :: found) more rest

end Piece

def pieces (text : Bytes) : List Piece := Piece.collect [] 0 text

end Screen
end StackBound
