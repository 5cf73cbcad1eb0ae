import StackBound.Text.Bytes

/-! Line reading with a limit. A line ends at a newline, and one carriage return before the newline
belongs to the ending. A line whose bytes, its carriage return included, reach the limit cannot be
read, and nothing after it is. -/
namespace StackBound

/-- The lines read, in order, and whether reading stopped at a line that is too long. -/
structure Lines where
  read : List Bytes
  tooLong : Bool

namespace Lines

def newline : UInt8 := 10

/-- Everything between newlines; an ending newline starts no further line. -/
def raw (content : Bytes) : List Bytes :=
  match (content.split newline).reverse with
  | [] :: earlier => earlier.reverse
  | parts => parts.reverse

def withoutReturn (line : Bytes) : Bytes :=
  if line.getLast? = some 13 then line.dropLast else line

def ofContent (limit : Nat) (content : Bytes) : Lines :=
  let fits (line : Bytes) := decide (line.length < limit)
  let lines := raw content
  let read := lines.takeWhile fits
  ⟨read.map withoutReturn, read.length < lines.length⟩

/-- The lines with their numbers, counted from one. -/
def numbered (lines : Lines) : List (Nat × Bytes) :=
  lines.read.mapIdx fun i line => (i + 1, line)

end Lines
end StackBound
