import StackBound.Text.Bytes

/-! Slash-separated paths, worked on as text alone. -/
namespace StackBound

abbrev Path := Bytes

namespace Path

def slash : UInt8 := 47

def dot : Bytes := [46]
def dotDot : Bytes := [46, 46]

def isRooted (path : Path) : Bool := path.head? = some slash

/-- The components walked so far, last first, after one more: an empty one or `.` stays in place,
and `..` goes up where there is something to leave. -/
def walk (rooted : Bool) (done : List Bytes) (part : Bytes) : List Bytes :=
  if part = [] ∨ part = dot then done
  else if part = dotDot then
    match done with
    | [] => if rooted then [] else [dotDot]
    | last :: before => if last = dotDot then dotDot :: done else before
  else part :: done

/-- The components left when every `.` and every `..` that can be is resolved. -/
def parts (path : Path) : List Bytes :=
  ((path.split slash).foldl (walk path.isRooted) []).reverse

def clean (path : Path) : Path :=
  let joined := Bytes.join [slash] path.parts
  if path.isRooted then slash :: joined
  else if joined = [] then dot else joined

/-- The last component; the empty path has `.`, and a path of slashes has one. -/
def base (path : Path) : Bytes :=
  if path = [] then dot
  else
    let trimmed := path.reverse.dropWhile (· == slash)
    match (trimmed.takeWhile (· != slash)).reverse with
    | [] => [slash]
    | name => name

/-- Everything up to the last slash, cleaned. -/
def dir (path : Path) : Path := clean (path.reverse.dropWhile (· != slash)).reverse

/-- The non-empty elements with slashes between, cleaned; nothing from nothing. -/
def join (elements : List Path) : Path :=
  match elements.filter (· ≠ []) with
  | [] => []
  | given => clean (Bytes.join [slash] given)

end Path
end StackBound
