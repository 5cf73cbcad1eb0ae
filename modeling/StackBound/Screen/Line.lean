import StackBound.Text.Width

/-! Lines of text on a terminal: padded, centred, marked and ruled. -/
namespace StackBound
namespace Screen

def newline : UInt8 := 10

def line (text : Bytes) : Bytes := text ++ [newline]

def padded (width : Nat) (text : Bytes) : Bytes := text ++ Bytes.spaces (width - text.cells)

def paddedLeft (width : Nat) (text : Bytes) : Bytes := Bytes.spaces (width - text.cells) ++ text

/-- The text in the middle of a line; an odd space goes to its right. -/
def centred (width : Nat) (text : Bytes) : Bytes :=
  let gap := width - text.cells
  Bytes.spaces (gap / 2) ++ text ++ Bytes.spaces (gap - gap / 2)

def untabbed (text : Bytes) : Bytes :=
  text.flatMap fun b => if b = 9 then Bytes.spaces 4 else [b]

/-- Drops each carriage return before a line end, adding to what is kept, last first. -/
def plainEnds (kept : Bytes) : Bytes → Bytes
  | 13 :: 10 :: rest => plainEnds (10 :: kept) rest
  | b :: rest => plainEnds (b :: kept) rest
  | [] => kept.reverse

def widest (text : Bytes) : Nat := ((text.split newline).map Bytes.cells).foldl max 0

/-- A block of text: tabs are spaces, and if there are several lines they all have the width of the
widest. -/
def block (text : Bytes) : Bytes :=
  let lines := (plainEnds [] (untabbed text)).split newline
  match lines with
  | [only] => only
  | lines =>
    let width := (lines.map Bytes.cells).foldl max 0
    Bytes.join [newline] (lines.map (padded width))

inductive Mark
  | ok
  | fail
  | warn
  | info
  deriving DecidableEq, Repr

def Mark.glyph : Mark → Bytes
  | .ok => utf8 "✓"
  | .fail => utf8 "✗"
  | .warn => utf8 "!"
  | .info => utf8 "›"

/-- A line with a mark. What has gone wrong is set as a block. -/
def status (mark : Mark) (message : Bytes) : Bytes :=
  let body := match mark with
    | .fail | .warn => block message
    | .ok | .info => message
  line (mark.glyph ++ utf8 " " ++ body)

def detail (message : Bytes) : Bytes := line (utf8 "  " ++ block message)

def keyWidth : Nat := 14

def keyValue (key : String) (value : Bytes) : Bytes :=
  line (padded keyWidth (utf8 key) ++ utf8 " " ++ block value)

def sectionWidth : Nat := 70

def heading (title : String) : Bytes :=
  let rule := line (List.replicate sectionWidth 61)
  line [] ++ rule ++ line (centred sectionWidth (utf8 title)) ++ rule

def file (path : Bytes) : Bytes := line (utf8 "  → " ++ block path)

end Screen
end StackBound
