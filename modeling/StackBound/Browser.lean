import StackBound.Screen.Summary

/-! Looking through the scenarios of a run. A list shows some of them, one of which is selected and
set out below the list. -/
namespace StackBound

open Screen

/-- The part of a list that is shown, and the selected place. Places are whole numbers counted from
zero, and only the rules of moving keep them inside the list. -/
structure Window where
  /-- The selected place. -/
  cursor : Int
  /-- The first place that is shown. -/
  offset : Int
  /-- How many places are shown. -/
  height : Int
  deriving DecidableEq, Repr

namespace Window

def initial : Window := ⟨0, 0, 10⟩

def moveUp (w : Window) : Window :=
  if 0 < w.cursor then
    let cursor := w.cursor - 1
    { w with cursor := cursor, offset := if cursor < w.offset then cursor else w.offset }
  else w

/-- Selects the place below, if the list has one; the window follows if it has to. -/
def moveDown (w : Window) (count : Int) : Window :=
  if w.cursor < count - 1 then
    let cursor := w.cursor + 1
    { w with
      cursor := cursor
      offset := if w.offset + w.height ≤ cursor then cursor - w.height + 1 else w.offset }
  else w

/-- The list takes half of the lines but a few, and never less than three. -/
def heightFor (lines : Int64) : Int := max 3 (lines.toInt.tdiv 2 - 4)

def resize (w : Window) (lines : Int64) : Window := { w with height := heightFor lines }

/-- The places that are shown of a list with so many, in order. -/
def places (w : Window) (count : Int) : List Int :=
  (List.range (min (w.offset + w.height) count - w.offset).toNat).map fun (i : Nat) => w.offset + i

end Window

structure Browser where
  outcomes : List Outcome
  sizes : Name → Int64
  /-- The label of the overall worst scenario. -/
  worst : Bytes
  window : Window
  /-- Whether every entry point is set out, not only the worst. -/
  allEntries : Bool

namespace Browser

inductive Message
  | key (name : Bytes)
  | resize (lines : Int64)
  deriving DecidableEq, Repr

inductive Key
  | quit
  | up
  | down
  | toggle
  | other
  deriving DecidableEq, Repr

def Key.ofName (name : Bytes) : Key :=
  if [utf8 "q", utf8 "ctrl+c", utf8 "esc"].contains name then .quit
  else if [utf8 "up", utf8 "k"].contains name then .up
  else if [utf8 "down", utf8 "j"].contains name then .down
  else if [utf8 "enter", utf8 "tab"].contains name then .toggle
  else .other

def ofEvaluation (e : Evaluation) (sizes : Name → Int64) : Browser :=
  ⟨e.outcomes, sizes, e.overall.label, .initial, false⟩

def count (b : Browser) : Int := b.outcomes.length

def press (b : Browser) : Key → Browser
  | .up => { b with window := b.window.moveUp }
  | .down => { b with window := b.window.moveDown b.count }
  | .toggle => { b with allEntries := !b.allEntries }
  | .quit | .other => b

def update (b : Browser) : Message → Browser
  | .key name => b.press (.ofName name)
  | .resize lines => { b with window := b.window.resize lines }

def Message.isQuit : Message → Bool
  | .key name => Key.ofName name = .quit
  | .resize _ => false

def outcome? (b : Browser) (place : Int) : Option Outcome :=
  if place < 0 then none else b.outcomes[place.toNat]?

def row (b : Browser) (place : Int) (o : Outcome) : List Bytes :=
  [utf8 (if place = b.window.cursor then "▸ " else "  "), o.label, o.entry, Summary.worst o.result,
    if o.label = b.worst then utf8 "worst" else []]

/-- The rows of the list, unless one is asked for that is not there. -/
def rows? (b : Browser) : Option (List (List Bytes)) :=
  (b.window.places b.count).mapM fun place => (b.outcome? place).map (b.row place)

def titles : List String := ["", "Scenario", "Entry", "Worst case", ""]

inductive Look
  | title
  | body (unbounded selected : Bool)
  deriving DecidableEq, Repr

def titleRow : Int := -1

def look? (b : Browser) (row : Int) (column : Nat) : Option Look :=
  if row = titleRow then some .title
  else
    let place := b.window.offset + row
    (b.outcome? place).map fun o => .body (o.result.unbounded && column = 3) (place = b.window.cursor)

def looks? (b : Browser) (rows : Nat) : Option (List (List Look)) :=
  (titleRow :: (List.range rows).map Int.ofNat).mapM fun row =>
    (List.range titles.length).mapM (b.look? row)

/-- The table looks up every cell, though without colours nothing of it shows. -/
def grid? (b : Browser) : Option Grid := do
  let rows ← b.rows?
  let _ ← b.looks? rows.length
  return .ofTitles titles rows 0

def entryText (b : Browser) (e : EntryResult) : Bytes :=
  if e.entry = [] then line (utf8 "no call path")
  else
    line (block e.entry ++ utf8 "  " ++ Summary.worst e.result) ++
    if e.result.unbounded then line (utf8 "  " ++ block (WorstCase.arrows e.result.cycle))
    else (Summary.pathLines (WorstCase.breakdown b.sizes e.result.path)).flatMap fun text =>
      line (utf8 "  " ++ text)

def detail (b : Browser) (o : Outcome) : Bytes :=
  (if b.allEntries then o.entries else [⟨o.entry, o.result⟩]).flatMap b.entryText

/-- What stands below the list; nothing if the list is empty. -/
def selected? (b : Browser) : Option Bytes :=
  if 0 < b.count then (b.outcome? b.window.cursor).map b.detail else some []

def footer (b : Browser) : Bytes :=
  block (utf8 "\n  [" ++ Bytes.ofInt (b.window.cursor + 1) ++ utf8 "/" ++ Bytes.ofInt b.count ++
    utf8 "]")

/-- The screen, unless a scenario is asked for that is not there. -/
def view? (b : Browser) : Option Bytes := do
  let grid ← b.grid?
  let selected ← b.selected?
  return line (utf8 "Scenarios") ++ line (utf8 "↑/↓ navigate  ⏎ toggle entry points  q quit") ++
    line [] ++ line grid.text ++ line [] ++ selected ++ b.footer

/-! What a terminal is given. The window never leaves the list, so nothing is lost here. -/

def view (b : Browser) : Bytes := b.view?.getD []

def cursor (b : Browser) : Nat := b.window.cursor.toNat

def offset (b : Browser) : Nat := b.window.offset.toNat

def height (b : Browser) : Nat := b.window.height.toNat

end Browser
end StackBound
