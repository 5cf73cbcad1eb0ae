import StackBound.Json.Value
import StackBound.Text.Base64
import StackBound.Text.Folded

/-! Reading records off structured values. A member may occur more than once, and its value comes
from all its occurrences: null says nothing, an object speaks for the members it has, and each item
of a list comes from all items at its place since the list was last empty or null. The last list says
how many items there are. A value of the wrong shape anywhere makes the whole unreadable. -/
namespace StackBound
namespace Json

/-- Reads a value off its occurrences, the first one first. -/
abbrev Reader (α : Type) := List Json → Option α

namespace Reader

/-- What has no parts is what its last occurrence says that is not null. -/
def leaf (blank : α) (read : Json → Option α) : Reader α :=
  fun occurrences => occurrences.foldlM (fun old value => match value with
    | .null => some old
    | value => read value) blank

def text : Reader Bytes :=
  leaf [] fun value => match value with
    | .string s => some s
    | _ => none

def bool : Reader Bool :=
  leaf false fun value => match value with
    | .bool b => some b
    | _ => none

def int : Reader Int64 :=
  leaf 0 fun value => match value with
    | .number numeral => numeral.toInt64?
    | _ => none

/-! ### Lists -/

/-- What one occurrence of a list does to those before it. -/
inductive Layer (ι : Type)
  /-- It takes the list away. -/
  | absent
  /-- It starts the list anew, without items. -/
  | empty
  /-- It lies over the items before it. Those beyond its end are out of sight, but not forgotten. -/
  | laid (items : List ι)

/-- Puts items over columns; last is read first in each column. -/
def stack (columns : List (List ι)) (items : List ι) : List (List ι) :=
  let (rest, done) := items.foldl (fun (state : List (List ι) × List (List ι)) item =>
    (state.1.tail, (item :: state.1.headD []) :: state.2)) (columns, [])
  done.reverseAux rest

/-- The items at each place since the list was last absent or empty, the last one first. -/
def columns (layers : List (Layer ι)) : List (List ι) :=
  layers.foldl (fun columns layer => match layer with
    | .absent | .empty => []
    | .laid items => stack columns items) []

/-- How many items there are, if there is a list. -/
def length? (layers : List (Layer ι)) : Option Nat :=
  match layers.getLast? with
  | none | some .absent => none
  | some .empty => some 0
  | some (.laid items) => some items.length

def settle (layers : List (Layer ι)) (item : List ι → Option α) : Option (Option (List α)) :=
  match length? layers with
  | none => some none
  | some length =>
    (((columns layers).take length).foldlM (fun done column =>
      (item column.reverse).map (· :: done)) []).map fun done => some done.reverse

def layer? : Json → Option (Layer Json)
  | .null => some .absent
  | .array [] => some .empty
  | .array items => some (.laid items)
  | _ => none

/-- A list, or its absence. Items that end up out of sight have to be readable too. -/
def list? (item : Reader α) : Reader (Option (List α)) :=
  fun occurrences => do
    let layers ← occurrences.mapM layer?
    guard (layers.all fun layer => match layer with
      | .laid items => items.all fun value => (item [value]).isSome
      | .absent | .empty => true)
    settle layers item

def list (item : Reader α) : Reader (List α) :=
  fun occurrences => (list? item occurrences).map (·.getD [])

/-! ### Bytes -/

/-- A byte is written in digits alone; null says nothing. -/
def byte? : Json → Option (Option UInt8)
  | .null => some none
  | .number numeral =>
    let n := Bytes.natOfDigits numeral
    if numeral.all Bytes.isDigit ∧ n < 256 then some (some n.toUInt8) else none
  | _ => none

/-- Bytes are written as letters, or else as a list of numbers. -/
def blobLayer? : Json → Option (Layer (Option UInt8))
  | .null => some .absent
  | .string letters => (Base64.decode letters).map fun bytes => .laid (bytes.map some)
  | .array [] => some .empty
  | .array items => (items.mapM byte?).map .laid
  | _ => none

def blob : Reader Bytes :=
  fun occurrences => do
    let layers ← occurrences.mapM blobLayer?
    let bytes ← settle layers fun column => some ((column.filterMap id).getLastD 0)
    return bytes.getD []

/-! ### Records -/

abbrev Setter (β : Type) := β → List Json → Option β

def setter (set : β → α → β) (reader : Reader α) : Setter β :=
  fun record occurrences => (reader occurrences).map (set record)

def field (key : String) (set : β → α → β) (reader : Reader α) : Bytes × Setter β :=
  (utf8 key, setter set reader)

def members? : Json → Option (List Member)
  | .null => some []
  | .object members => some members
  | _ => none

def object (blank : β) (known : List (Bytes × Setter β)) : Reader β :=
  fun occurrences => do
    let objects ← occurrences.mapM members?
    let members := objects.flatten.map fun member =>
      (Bytes.meant? (known.map (·.1)) member.1, member.2)
    known.foldlM (fun record entry =>
      entry.2 record ((members.filter (·.1 = some entry.1)).map (·.2))) blank

end Reader
end Json
end StackBound
