import StackBound.Screen.Line
import StackBound.Screen.Piece
import StackBound.Text.Blank

/-! Text set in a column: broken into lines between words, or within a word that is too long, and cut
at the edge. -/
namespace StackBound
namespace Screen

def space : UInt8 := 32
def tab : UInt8 := 9
def hyphen : UInt8 := 45

/-! ### Setting -/

/-- A text that is being set: the lines so far, and a word and the spaces before it that may still go
to the next line. Finished parts stand last first. -/
structure Setting where
  limit : Nat
  done : List Bytes
  word : List Bytes
  wordWidth : Nat
  spaces : Bytes
  /-- The width of the line so far. -/
  width : Nat
  /-- The pen and link after the last piece read. -/
  pen : Pen
  link : Link
  /-- The pen and link after the last word set. -/
  usedPen : Pen
  usedLink : Link

namespace Setting

def start (limit : Nat) : Setting :=
  ⟨limit, [], [], 0, [], 0, .plain, .none, .plain, .none⟩

def addSpaces (s : Setting) : Setting :=
  { s with done := s.spaces :: s.done, width := s.width + s.spaces.length, spaces := [] }

def addWord (s : Setting) : Setting :=
  if s.word = [] then s
  else
    let s := s.addSpaces
    { s with
      done := s.word ++ s.done, width := s.width + s.wordWidth, word := [], wordWidth := 0
      usedPen := s.pen, usedLink := s.link }

def lay (s : Setting) : List Bytes :=
  (if s.usedPen = .plain then [] else [Pen.reset]) ++
    (if s.usedLink = .none then [] else [Link.none.text])

def takeUp (s : Setting) : List Bytes :=
  (if s.usedLink = .none then [] else [s.usedLink.text]) ++
    (if s.usedPen = .plain then [] else [s.usedPen.text])

def breakLine (s : Setting) : Setting :=
  { s with done := (s.lay ++ [[newline]] ++ s.takeUp).reverse ++ s.done, width := 0, spaces := [] }

/-- At the end of a line, sets the spaces that no word follows if there is room for them. -/
def endSpaces (s : Setting) : Setting :=
  if s.wordWidth = 0 then
    if s.limit < s.width + s.spaces.length then { s with width := 0, spaces := [] }
    else { s with done := s.spaces :: s.done, spaces := [] }
  else s

def note (s : Setting) : Change → Setting
  | .nothing => s
  | .pen parameters => { s with pen := s.pen.apply parameters }
  | .link link => { s with link := link }

/-- Adds a piece to the word, and starts a new line if the word no longer fits. -/
def extend (s : Setting) (p : Piece) : Setting :=
  let s := if s.limit < s.wordWidth + p.width then s.addWord else s
  let s := { s with word := p.bytes :: s.word, wordWidth := s.wordWidth + p.width }
  if s.limit < s.width + s.wordWidth + s.spaces.length then s.breakLine else s

def add (s : Setting) (p : Piece) : Setting :=
  if p.width = 0 then
    if p.bytes = [tab] then
      let s := s.addWord
      { s with spaces := s.spaces ++ p.bytes }
    else if p.bytes = [newline] then s.endSpaces.addWord.breakLine
    else
      let s := s.note p.change
      { s with word := p.bytes :: s.word }
  else if p.bytes = [space] ∧ s.pen.hidesSpaces then
    let s := s.addWord
    { s with spaces := s.spaces ++ p.bytes }
  else if p.bytes = [hyphen] then
    let s := s.addSpaces
    if s.width + s.wordWidth + p.width ≤ s.limit then
      let s := s.addWord
      { s with done := p.bytes :: s.done, width := s.width + p.width }
    else s.extend p
  else s.extend p

/-- The finished text. What is still in use is put down, the link first. -/
def text (s : Setting) : Bytes :=
  let s := s.endSpaces.addWord
  (s.lay ++ s.done).reverse.flatten

end Setting

/-- A text broken into lines of a width. Without any width it is left alone. -/
def wrapped (limit : Nat) (text : Bytes) : Bytes :=
  if limit = 0 then text else ((pieces text).foldl Setting.add (.start limit)).text

/-! ### Counting -/

/-- What is known of a line that is being broken, without the text itself. Here a control is counted
as a letter, and a blank control as a space. -/
structure Count where
  limit : Nat
  breaks : Nat
  width : Nat
  wordWidth : Nat
  /-- Whether a word is waiting, which may have no width. -/
  inWord : Bool
  spaceWidth : Nat

namespace Count

def addSpaces (k : Count) : Count :=
  { k with width := k.width + k.spaceWidth, spaceWidth := 0 }

def addWord (k : Count) : Count :=
  if k.inWord then
    { k with
      width := k.width + k.spaceWidth + k.wordWidth, spaceWidth := 0, wordWidth := 0
      inWord := false }
  else k

def breakLine (k : Count) : Count :=
  { k with breaks := k.breaks + 1, width := 0, spaceWidth := 0 }

def breakIfOver (k : Count) : Count :=
  if k.limit < k.width + k.wordWidth + k.spaceWidth then k.breakLine else k

def addSpace (k : Count) (width : Nat) : Count :=
  let k := k.addWord
  { k with spaceWidth := k.spaceWidth + width }

def extend (k : Count) (width : Nat) : Count :=
  { k with wordWidth := k.wordWidth + width, inWord := true }

def addCluster (k : Count) (width : Nat) (first : Glyph) : Count :=
  if first.is isBlank && first != .char '\u00A0' then k.addSpace width
  else
    let k := if k.limit < k.wordWidth + width then k.addWord else k
    (k.extend width).breakIfOver

def addByte (k : Count) (b : UInt8) : Count :=
  if isBlank (Char.ofNat b.toNat) then k.addSpace 1
  else if b = hyphen then
    let k := k.addSpaces
    if k.limit ≤ k.width + k.wordWidth then k.extend 1
    else
      let k := k.addWord
      { k with width := k.width + 1 }
  else
    let k := if k.width = k.limit then k.breakLine else k
    let k := k.extend 1
    (if k.wordWidth = k.limit then k.addWord else k).breakIfOver

def run (state : Escape.State) (k : Count) : Nat → Bytes → Count
  | _, [] => k
  | skip + 1, _ :: rest => run state k skip rest
  | 0, b :: rest =>
    let (next, effect) := state.next b
    match effect with
    | .letter =>
      let (width, more) := Cluster.measure b rest
      run .ground (k.addCluster width (Utf8.first b rest).1) more rest
    | .print | .control => run next (k.addByte b) 0 rest
    | .silent => run next { k with inWord := true } 0 rest

end Count

def lineCount (limit : Nat) (text : Bytes) : Nat :=
  if limit = 0 then 1 else (Count.run .ground ⟨limit, 0, 0, 0, false, 0⟩ 0 text).breaks + 1

/-! ### Cutting -/

/-- A line that is being cut: the cells so far, whether the edge was reached, and what is kept, last
first. Beyond the edge only sequences are kept. -/
structure Cut where
  edge : Nat
  width : Nat
  beyond : Bool
  kept : Bytes

namespace Cut

/-- A state that was left beyond the edge by something shown is kept, as the thing is not seen. -/
def run (state : Escape.State) (k : Cut) : Nat → Bytes → Bytes
  | _, [] => k.kept.reverse
  | skip + 1, _ :: rest => run state k skip rest
  | 0, b :: rest =>
    let (next, effect) := state.next b
    match effect with
    | .letter =>
      let (width, more) := Cluster.measure b rest
      let k := { k with width := k.width + width }
      if k.beyond then run state k more rest
      else if k.edge < k.width then run state { k with beyond := true } more rest
      else run .ground { k with kept := (rest.take more).reverse ++ b :: k.kept } more rest
    | .print =>
      if k.beyond || k.width == k.edge then run state { k with beyond := true } 0 rest
      else run next { k with width := k.width + 1, kept := b :: k.kept } 0 rest
    | .control =>
      if k.beyond then run state k 0 rest else run next { k with kept := b :: k.kept } 0 rest
    | .silent => run next { k with kept := b :: k.kept } 0 rest

end Cut

/-- A line without what stands beyond an edge. -/
def cut (edge : Nat) (line : Bytes) : Bytes :=
  if line.cells ≤ edge then line else Cut.run .ground ⟨edge, 0, false, []⟩ 0 line

end Screen
end StackBound
