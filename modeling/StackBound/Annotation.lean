import StackBound.CallGraph.Graph
import StackBound.Fault
import StackBound.Text.Lines
import StackBound.Tree
import StackBound.Warning

/-! Annotated calls. A file lists one `caller,callee` pair a line; it names the calls to ignore, or
the calls that a scenario assumes. Names are normalized, and `#` starts a comment line. -/
namespace StackBound

open CallGraph (Edge Overlay)

/-- A set of calls in the order of their insertion. -/
structure Annotations where
  entries : Array Edge
  known : Std.HashSet Edge

namespace Annotations

def empty : Annotations := ⟨#[], ∅⟩

def normal (call : Edge) : Edge := ⟨call.caller.normalize, call.callee.normalize⟩

/-- Inserts the normalized call and tells whether it is new. -/
def add (s : Annotations) (call : Edge) : Annotations × Bool :=
  let call := normal call
  if s.known.contains call then (s, false)
  else (⟨s.entries.push call, s.known.insert call⟩, true)

def insert (s : Annotations) (call : Edge) : Annotations := (s.add call).1

def ofList (calls : List Edge) : Annotations := calls.foldl insert empty

def has (s : Annotations) (call : Edge) : Bool := s.known.contains call

def toList (s : Annotations) : List Edge := s.entries.toList

def size (s : Annotations) : Nat := s.entries.size

def overlay (s : Annotations) : Overlay := .ofEdges s.toList

inductive Line
  | blank
  | call (edge : Edge)
  | malformed (text : Bytes)
  deriving DecidableEq, Repr

def comma : UInt8 := 44
def hash : UInt8 := 35

def Line.parse (raw : Bytes) : Line :=
  let text := raw.trim
  if text = [] ∨ text.head? = some hash then .blank
  else match text.split comma with
    | [left, right] =>
      let caller := left.trim
      let callee := right.trim
      if caller = [] ∨ callee = [] then .malformed text else .call ⟨caller, callee⟩
    | _ => .malformed text

def Line.warning? (source : Bytes) (number : Nat) : Line → Option Warning
  | .malformed text =>
    some (.skipped source (Int64.ofNat number)
      (utf8 "skipping malformed annotation " ++ text.quoted ++
        utf8 ": expected format caller_function,callee_function"))
  | _ => none

def Line.call? : Line → Option Edge
  | .call edge => some edge
  | _ => none

def lineLimit : Nat := 65536

/-- Reads a file. Malformed lines give warnings; a line that is too long ends the reading, and the
warnings before it stand. -/
def read (content source : Bytes) : Except Fault Annotations × List Warning :=
  let lines := Lines.ofContent lineLimit content
  let parsed := lines.numbered.map fun line => (line.1, Line.parse line.2)
  let warnings := parsed.filterMap fun line => line.2.warning? source line.1
  if lines.tooLong then
    (.error (.during (utf8 "read " ++ source) .lineTooLong), warnings)
  else (.ok (ofList (parsed.filterMap fun line => line.2.call?)), warnings)

def load (t : Tree) (path : Path) : Except Fault Annotations × List Warning :=
  match t.read path with
  | .ok content => read content path
  | .error e =>
    (.error <|
      if e.isMissing then
        .codedBy .fileNotFound (utf8 "annotation file not found: " ++ path) e.fault
      else .during (e.verb ++ utf8 " " ++ path) e.fault, [])

end Annotations
end StackBound
