import StackBound.Fault
import StackBound.Text.Blank
import StackBound.Text.Lines
import StackBound.Warning

/-! Frame-size records. A line names a function by the fourth part of a colon-separated identifier
and gives its frame size in bytes:

    src/main.c:41:5:main	24	static

Whatever follows the size is not read. -/
namespace StackBound
namespace StackUsage

structure Record where
  name : Bytes
  size : Int64
  deriving DecidableEq, Repr

structure Skipped where
  line : Int64
  text : Bytes
  reason : Bytes
  deriving DecidableEq, Repr

structure Listing where
  records : List Record
  skipped : List Skipped
  deriving DecidableEq, Repr

def colon : UInt8 := 58

def Record.parse (line : Bytes) : Except Fault Record :=
  match line.fields with
  | identifier :: size :: _ =>
    match identifier.split colon with
    | _ :: _ :: _ :: name :: _ =>
      if name = [] then .error .noFunctionName
      else match size.toInt64? with
        | some n => if n < 0 then .error (.invalidSize size) else .ok ⟨name, n⟩
        | none => .error (.invalidSize size)
    | _ => .error .noFunctionName
  | _ => .error .tooFewFields

def lineLimit : Nat := 1048576

namespace Listing

/-- Adds one line to what the lines before it gave. Blank lines count but hold nothing. -/
def add (found : Listing) (line : Nat × Bytes) : Listing :=
  let text := line.2.trim
  if text = [] then found
  else match Record.parse text with
    | .ok record => { found with records := record :: found.records }
    | .error fault =>
      { found with skipped := ⟨Int64.ofNat line.1, text, fault.text⟩ :: found.skipped }

def ofLines (lines : List (Nat × Bytes)) : Listing :=
  let found := lines.foldl add ⟨[], []⟩
  ⟨found.records.reverse, found.skipped.reverse⟩

/-- Reads a file. A malformed line is skipped; only a line that is too long ends the reading. -/
def parse (content : Bytes) : Except Fault Listing :=
  let lines := Lines.ofContent lineLimit content
  if lines.tooLong then .error (.during (utf8 "read") .lineTooLong)
  else .ok (ofLines lines.numbered)

/-- One warning for each skipped line. -/
def warnings (listing : Listing) (source : Bytes) : List Warning :=
  listing.skipped.map fun s =>
    .skipped source s.line
      (utf8 "skipping malformed stack usage line " ++ s.text.quoted ++ utf8 ": " ++ s.reason)

end Listing
end StackUsage
end StackBound
