import StackBound.Toml.Statement
import Std.Data.HashSet

/-! The tables that the statements of a document build up. A table may come into being in passing,
as part of a longer key; such a table may be opened once more by name. A key that holds an array may
be given again, and the last value counts. Any other key may be given once. -/
namespace StackBound
namespace Toml

inductive Item
  | string (text : Bytes)
  | integer (n : Int64)
  | float
  | boolean (b : Bool)
  | date
  | array (items : List Item)
  | table (fields : List (Bytes × Item))
  | tables (rows : List (List (Bytes × Item)))

abbrev Table := List (Bytes × Item)

namespace Table

def get? (t : Table) (name : Bytes) : Option Item := t.lookup name

def has (t : Table) (name : Bytes) : Bool := (t.get? name).isSome

def set (t : Table) (name : Bytes) (item : Item) : Table :=
  if t.has name then t.map fun field => if field.1 = name then (name, item) else field
  else t ++ [(name, item)]

/-- The table that a key leads to; of a list of tables, the last counts. -/
def at? : Key → Table → Option Table
  | [], t => some t
  | name :: rest, t =>
    match t.get? name with
    | some (.table inner) => at? rest inner
    | some (.tables rows) =>
      match rows.getLast? with
      | none => none
      | some last => at? rest last
    | _ => none

/-- Changes the table that a key leads to, if it leads to one. -/
def change (edit : Table → Table) : Key → Table → Table
  | [], t => edit t
  | name :: rest, t =>
    match t.get? name with
    | some (.table inner) => t.set name (.table (change edit rest inner))
    | some (.tables rows) =>
      match rows.getLast? with
      | none => t
      | some last => t.set name (.tables (rows.dropLast ++ [change edit rest last]))
    | _ => t

def place? (name : Bytes) (item : Item) : Key → Table → Option Table
  | [], t => some (t.set name item)
  | part :: rest, t =>
    match t.get? part with
    | none => (place? name item rest []).map fun inner => t.set part (.table inner)
    | some (.table inner) =>
      (place? name item rest inner).map fun inner => t.set part (.table inner)
    | some _ => none

end Table

structure Builder where
  root : Table
  /-- Every key that is written out, in order. -/
  keys : List Key
  /-- Tables that exist in passing only. -/
  passing : Std.HashSet Key
  /-- Keys that were last given an array. -/
  arrays : Std.HashSet Key

namespace Builder

def empty : Builder := ⟨[], [], ∅, ∅⟩

/-- A key is noted as holding an array, or not. A nameless key counts as its table. -/
def mark (b : Builder) (context : Key) (name : Bytes) (isArray : Bool) : Builder :=
  let key := if name = [] then context else context ++ [name]
  let key := if key = [] then [[]] else key
  { b with arrays := if isArray then b.arrays.insert key else b.arrays.erase key }

def put (b : Builder) (context : Key) (name : Bytes) (item : Item) : Builder :=
  { b with root := b.root.change (fun t => t.set name item) context }

def addPassing (b : Builder) (key : Key) : Builder := { b with passing := b.passing.insert key }

def endPassing (b : Builder) (key : Key) : Builder := { b with passing := b.passing.erase key }

/-- Gives a name in a table an item, where that is allowed. -/
def give (b : Builder) (context : Key) (name : Bytes) (item : Item) : Option Builder := do
  let t ← b.root.at? context
  let key := context ++ [name]
  if !t.has name then return b.put context name item
  else if b.arrays.contains key then return (b.put context name item).endPassing key
  else if b.passing.contains key then return b.endPassing key
  else none

/-- Makes the tables on the way to the last part of a key, in passing. -/
def openParents (b : Builder) (context : Key) : Key → Option Builder
  | [] => some b
  | name :: rest =>
    match b.root.at? context with
    | none => none
    | some t =>
      let key := context ++ [name]
      if t.has name then b.openParents key rest
      else ((b.addPassing key).put context name (.table [])).openParents key rest

def openTable (b : Builder) (key : Key) : Option Builder := do
  let b ← b.openParents [] key.dropLast
  b.give key.dropLast (key.getLastD []) (.table [])

def openRow (b : Builder) (key : Key) : Option Builder := do
  let b ← b.openParents [] key.dropLast
  let name := key.getLastD []
  match (← b.root.at? key.dropLast).get? name with
  | none => return b.put key.dropLast name (.tables [[]])
  | some (.tables rows) => return b.put key.dropLast name (.tables (rows ++ [[]]))
  | some _ => none

def pass (b : Builder) (key : Key) : Option Builder :=
  (b.addPassing key).openTable key

def passAll (b : Builder) (context : Key) : Key → Option (Builder × Key)
  | [] => some (b, context)
  | name :: rest =>
    match b.pass (context ++ [name]) with
    | none => none
    | some b => b.passAll (context ++ [name]) rest

def addKey (b : Builder) (key : Key) : Builder := { b with keys := key :: b.keys }

def isArray : Item → Bool
  | .array _ => true
  | _ => false

mutual

/-- The item that a value stands for, at a name in a table. Inline tables are built in place. -/
def evaluate (b : Builder) (context : Key) (name : Bytes) (inArray : Bool) :
    Value → Option (Builder × Item)
  | .string text => some (b, .string text)
  | .integer n => some (b, .integer n)
  | .float => some (b, .float)
  | .boolean v => some (b, .boolean v)
  | .date => some (b, .date)
  | .array items =>
    (evaluateAll (b.mark context name true) context name items).map fun (b, items) =>
      (b, .array items)
  | .inline fields =>
    let key := context ++ [name]
    let b := b.addPassing key
    match if inArray then b.openRow key else b.openTable key with
    | none => none
    | some b => (evaluateFields b key [] fields).map fun (b, fields) => (b, .table fields)

def evaluateAll (b : Builder) (context : Key) (name : Bytes) :
    List Value → Option (Builder × List Item)
  | [] => some (b, [])
  | value :: rest =>
    match evaluate b context name true value with
    | none => none
    | some (b, item) =>
      (evaluateAll b context name rest).map fun (b, items) => (b, item :: items)

def evaluateFields (b : Builder) (key : Key) (done : Table) :
    List (Key × Value) → Option (Builder × Table)
  | [] => some (b, done)
  | (path, value) :: rest =>
    let name := path.getLastD []
    match b.passAll key path.dropLast with
    | none => none
    | some (b, context) =>
      match evaluate (b.addKey (context ++ [name])) context name false value with
      | none => none
      | some (b, item) =>
        match b.give context name item, done.place? name item path.dropLast with
        | some b, some done =>
          evaluateFields (b.mark context name (isArray item)) key done rest
        | _, _ => none

end

def run (state : Builder × Key) : Statement → Option (Builder × Key)
  | .table key => (state.1.openTable key).map fun b =>
      ((b.mark key [] false).addKey key, key)
  | .tables key => (state.1.openRow key).map fun b =>
      ((b.mark key [] false).addKey key, key)
  | .assign path value => do
    let (b, opened) := state
    let name := path.getLastD []
    let (b, context) ← b.passAll opened path.dropLast
    let (b, item) ← (b.addKey (context ++ [name])).evaluate context name false value
    let b ← b.give context name item
    return (b.mark context name (isArray item), opened)

end Builder

structure Document where
  root : Table
  keys : List Key

def Document.parse? (text : Bytes) : Option Document := do
  let statements ← statements? text
  let (b, _) ← statements.foldlM Builder.run (.empty, [])
  return ⟨b.root, b.keys.reverse⟩

/-- A key part between quotation marks, with control characters, marks and backslashes escaped. -/
def quotedPart (part : Bytes) : Bytes :=
  let escape (b : UInt8) : Bytes :=
    if b = 34 ∨ b = 92 then [92, b]
    else if b = 8 then [92, 98]
    else if b = 9 then [92, 116]
    else if b = 10 then [92, 110]
    else if b = 12 then [92, 102]
    else if b = 13 then [92, 114]
    else if b < 32 ∨ b = 127 then [92, 117] ++ Bytes.hex 4 b.toNat
    else [b]
  34 :: part.flatMap escape ++ [34]

def Key.text (key : Key) : Bytes :=
  Bytes.join (utf8 ".") <| key.map fun part =>
    if part ≠ [] ∧ part.all isBare then part else quotedPart part

end Toml
end StackBound
