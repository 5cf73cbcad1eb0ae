import StackBound.Text.Bytes

/-! Lists written with commas. A field may stand in quotes, inside which a comma or a line end is
text and a quote is written twice. Only the first line that is not empty is read. -/
namespace StackBound
namespace Csv

def comma : UInt8 := 44
def quote : UInt8 := 34
def newline : UInt8 := 10

inductive Mistake
  | bareQuote
  | strayQuote
  deriving DecidableEq, Repr

def Mistake.text : Mistake → Bytes
  | .bareQuote => utf8 "bare \" in non-quoted-field"
  | .strayQuote => utf8 "extraneous or missing \" in quoted-field"

/-- What is wrong with a list: it holds nothing, or a quote is misplaced. Lines and columns count from
one. -/
inductive Error
  | nothing
  | misplaced (start line column : Nat) (mistake : Mistake)
  deriving DecidableEq, Repr

def Error.text : Error → Bytes
  | .nothing => utf8 "EOF"
  | .misplaced start line column mistake =>
    (if start = line then [] else utf8 "record on line " ++ Bytes.ofNat start ++ utf8 "; ") ++
      utf8 "parse error on line " ++ Bytes.ofNat line ++ utf8 ", column " ++ Bytes.ofNat column ++
      utf8 ": " ++ mistake.text

/-- A text as lines that keep their ends; a carriage return before an end, or before the end of the
text, is dropped. -/
def lines (text : Bytes) : List Bytes :=
  let parts := text.split newline
  let withoutReturn (part : Bytes) : Bytes :=
    if part.getLast? = some 13 then part.dropLast else part
  let last := parts.getLastD []
  (parts.dropLast.map fun part => withoutReturn part ++ [newline]) ++
    if last = [] then [] else [withoutReturn last]

structure Reading where
  fields : List Bytes
  /-- The field being read, last byte first. -/
  field : Bytes
  column : Nat
  line : Nat

inductive Mode
  | start
  | plain
  | quoted
  /-- After a quote inside a quoted field. -/
  | closing
  deriving DecidableEq, Repr

def Reading.finish (r : Reading) : Reading :=
  { r with fields := r.field.reverse :: r.fields, field := [] }

def Reading.take (r : Reading) (b : UInt8) : Reading := { r with field := b :: r.field }

def Reading.step (r : Reading) : Reading := { r with column := r.column + 1 }

/-- Reads the lines byte by byte. In a quoted field a line end leads to the next line. -/
def read (first : Nat) (mode : Mode) (r : Reading) : List Bytes → Except Error (List Bytes)
  | [] => finished mode r
  | [] :: more =>
    match mode with
    | .quoted =>
      if more = [] then finished mode r
      else read first .quoted { r with column := 1, line := r.line + 1 } more
    | _ => finished mode r
  | (b :: rest) :: more =>
    match mode with
    | .start =>
      if b = quote then read first .quoted r.step (rest :: more)
      else if b = comma then read first .start r.finish.step (rest :: more)
      else if b = newline ∧ rest = [] then finished mode r
      else read first .plain (r.take b).step (rest :: more)
    | .plain =>
      if b = comma then read first .start r.finish.step (rest :: more)
      else if b = quote then .error (.misplaced first r.line r.column .bareQuote)
      else if b = newline ∧ rest = [] then finished mode r
      else read first .plain (r.take b).step (rest :: more)
    | .quoted =>
      if b = quote then read first .closing r.step (rest :: more)
      else read first .quoted (r.take b).step (rest :: more)
    | .closing =>
      if b = quote then read first .quoted (r.take b).step (rest :: more)
      else if b = comma then read first .start r.finish.step (rest :: more)
      else if b = newline ∧ rest = [] then finished mode r
      else .error (.misplaced first r.line (r.column - 1) .strayQuote)
termination_by lines => lines.flatten.length + lines.length
where
  /-- The list at the end of the last line; an open quote is a mistake. -/
  finished (mode : Mode) (r : Reading) : Except Error (List Bytes) :=
    match mode with
    | .quoted => .error (.misplaced first r.line r.column .strayQuote)
    | _ => .ok r.finish.fields.reverse

def parse (text : Bytes) : Except Error (List Bytes) :=
  let lines := lines text
  let isEmpty (line : Bytes) : Bool := line = [] || line = [newline]
  let skipped := (lines.takeWhile isEmpty).length
  match lines.drop skipped with
  | [] => .error .nothing
  | rest => read (skipped + 1) .start ⟨[], [], 1, skipped + 1⟩ rest

end Csv
end StackBound
