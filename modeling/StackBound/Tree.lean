import StackBound.Path
import StackBound.Fault
import Std.Data.HashMap

/-! A directory tree: what is found at each place below its root. Places are lists of names; a path is
turned into a place by walking its components, from the root or from the working directory, and
following symbolic links. -/
namespace StackBound

inductive Node
  | file (content : Bytes)
  | directory
  | link (target : Path)
  deriving DecidableEq, Repr

abbrev Place := List Bytes

structure Tree where
  nodes : Std.HashMap Place Node
  /-- The working directory, where paths without a leading slash start. -/
  current : Place

inductive Refusal
  | missing
  | denied
  | notDirectory
  | isDirectory
  | exists
  | notEmpty
  | tooManyLinks
  | nameTooLong
  | invalid
  deriving DecidableEq, Repr

def Refusal.text : Refusal → Bytes
  | .missing => utf8 "no such file or directory"
  | .denied => utf8 "permission denied"
  | .notDirectory => utf8 "not a directory"
  | .isDirectory => utf8 "is a directory"
  | .exists => utf8 "file exists"
  | .notEmpty => utf8 "directory not empty"
  | .tooManyLinks => utf8 "too many levels of symbolic links"
  | .nameTooLong => utf8 "file name too long"
  | .invalid => utf8 "invalid argument"

structure PathError where
  verb : Bytes
  path : Path
  refusal : Refusal
  deriving DecidableEq, Repr

namespace PathError

def text (e : PathError) : Bytes := e.verb ++ utf8 " " ++ e.path ++ utf8 ": " ++ e.refusal.text

def fault (e : PathError) : Fault := .plain e.text

def isMissing (e : PathError) : Bool := e.refusal = .missing

end PathError

namespace Tree

def bare (current : Place) : Tree := ⟨∅, current⟩

/-- The root and the working directory are always there. -/
def node? (t : Tree) (place : Place) : Option Node :=
  if place.isPrefixOf t.current then some .directory else t.nodes[place]?

def linkLimit : Nat := 40

def longestName : Nat := 255

def longestPath : Nat := 4095

/-- Where the walk of a path starts that is found at a place. -/
def start (here : Place) (path : Path) : Place := if path.isRooted then [] else here

/-- Where the components lead from a place. The last component need not exist; whether it is
followed when it is a link is the caller's choice. The root is its own parent. -/
def walk (t : Tree) (follow : Bool) (links : Nat) (here : Place) (pending : List Bytes) :
    Except Refusal Place :=
  match pending with
  | [] => .ok here
  | part :: rest =>
    match t.node? here with
    | none => .error .missing
    | some (.file _) | some (.link _) => .error .notDirectory
    | some .directory =>
      if part = [] ∨ part = Path.dot then t.walk follow links here rest
      else if part = Path.dotDot then
        t.walk follow links here.dropLast rest
      else if longestName < part.length then .error .nameTooLong
      else
        match t.node? (here ++ [part]) with
        | some (.link target) =>
          if rest = [] ∧ ¬ follow then .ok (here ++ [part])
          else match links with
            | 0 => .error .tooManyLinks
            | links + 1 =>
              t.walk follow links (start here target) (target.split Path.slash ++ rest)
        | _ => t.walk follow links (here ++ [part]) rest
termination_by (links, pending.length)

def place (t : Tree) (follow : Bool) (path : Path) : Except Refusal Place :=
  if path.contains 0 then .error .invalid
  else if path = [] then .error .missing
  else if longestPath < path.length then .error .nameTooLong
  else t.walk follow linkLimit (start t.current path) (path.split Path.slash)

def find (t : Tree) (follow : Bool) (path : Path) : Except Refusal (Place × Node) := do
  let place ← t.place follow path
  match t.node? place with
  | some node => return (place, node)
  | none => .error .missing

def stat (t : Tree) (path : Path) : Except PathError (Place × Node) :=
  (t.find true path).mapError (⟨utf8 "stat", path, ·⟩)

/-- The content of a file. A directory opens but cannot be read. -/
def read (t : Tree) (path : Path) : Except PathError Bytes :=
  match t.find true path with
  | .error refusal => .error ⟨utf8 "open", path, refusal⟩
  | .ok (_, .file content) => .ok content
  | .ok _ => .error ⟨utf8 "read", path, .isDirectory⟩

def isFile (t : Tree) (path : Path) : Bool :=
  match t.find true path with
  | .ok (_, .file _) => true
  | _ => false

/-- Everything below the root, in no order. The way to the working directory need not be kept to be
there. -/
def entries (t : Tree) : List (Place × Node) :=
  t.nodes.toList.filter (fun entry => !entry.1.isPrefixOf t.current) ++
    (List.range t.current.length).map fun n => (t.current.take (n + 1), .directory)

/-- Everything strictly below a place, by its names from there, in the order of a walk that takes the
entries of each directory by name and a directory before what it holds. -/
def below (t : Tree) (place : Place) : List (Place × Node) :=
  let inside := t.entries.filterMap fun (other, node) =>
    if place.isPrefixOf other ∧ place.length < other.length then
      some (other.drop place.length, node)
    else none
  inside.mergeSort fun a b => decide (a.1 ≤ b.1)

def children (t : Tree) (place : Place) : List (Bytes × Node) :=
  (t.below place).filterMap fun entry => match entry.1 with
    | [name] => some (name, entry.2)
    | _ => none

def deepest (t : Tree) : Nat := (t.entries.map fun entry => entry.1.length).max?.getD 0

theorem length_lt_deepest {t : Tree} {place : Place} {child : Bytes × Node}
    (member : child ∈ t.children place) : place.length < t.deepest := by
  obtain ⟨⟨names, node⟩, there, single⟩ := List.mem_filterMap.mp member
  obtain ⟨⟨other, node'⟩, entry, taken⟩ := List.mem_filterMap.mp (List.mem_mergeSort.mp there)
  rw [Option.ite_none_right_eq_some] at taken
  have longest : other.length ≤ t.deepest :=
    List.le_max?_getD_of_mem (List.mem_map_of_mem (f := fun e : Place × Node => e.1.length) entry)
  exact Nat.lt_of_lt_of_le taken.1.2 longest

/-- Adds a directory for each proper beginning of a place that has nothing yet. -/
def makeParents (t : Tree) (place : Place) : Tree :=
  (List.range place.length).foldl (fun t n =>
    if (t.node? (place.take n)).isNone then { t with nodes := t.nodes.insert (place.take n) .directory } else t) t

/-- Puts a node at a place and makes the directories that lead to it. -/
def put (t : Tree) (place : Place) (node : Node) : Tree :=
  let t := t.makeParents place
  if place.isPrefixOf t.current then t else { t with nodes := t.nodes.insert place node }

def remove (t : Tree) (place : Place) : Tree :=
  { t with nodes := t.nodes.filter fun other _ => !place.isPrefixOf other }

def removeBelow (t : Tree) (place : Place) : Tree :=
  { t with nodes := t.nodes.filter fun other _ =>
      !(place.isPrefixOf other && place.length < other.length) }

def withoutEnd (path : Path) : Path := (path.reverse.dropWhile (· == Path.slash)).reverse

/-- Makes one directory where nothing is yet, not even a link. -/
def makeDirectory (t : Tree) (path : Path) : Except PathError Tree :=
  match t.place false (withoutEnd path) with
  | .error refusal => .error ⟨utf8 "mkdir", path, refusal⟩
  | .ok place =>
    if (t.node? place).isSome then .error ⟨utf8 "mkdir", path, .exists⟩
    else .ok (t.put place .directory)

/-- The beginnings of a path that end before one of its components, and the path itself. -/
def beginnings : Path → List Path
  | [] => []
  | b :: rest =>
    let longer := (beginnings rest).map (b :: ·)
    if rest = [] ∨ (b = Path.slash ∧ rest.head? ≠ some Path.slash) then [b] :: longer else longer

/-- Makes a directory and those that lead to it, as far as they are missing. -/
def makeDirectories (t : Tree) (path : Path) : Except PathError Tree :=
  (beginnings path).foldlM (fun t start =>
    match t.find true start with
    | .ok (_, .directory) => .ok t
    | .ok _ => .error ⟨utf8 "mkdir", start, .notDirectory⟩
    | .error _ =>
      match t.makeDirectory start, t.find false start with
      | .error _, .ok (_, .directory) => .ok t
      | made, _ => made) t

/-- Takes away a file, a link or an empty directory. -/
def unlink (t : Tree) (path : Path) : Except PathError Tree :=
  match t.find false path with
  | .error refusal => .error ⟨utf8 "remove", path, refusal⟩
  | .ok (place, .directory) =>
    if (t.below place).isEmpty then .ok (t.remove place)
    else .error ⟨utf8 "remove", path, .notEmpty⟩
  | .ok (place, _) => .ok (t.remove place)

/-- Writes a file, a new one where there is none yet. The directory must be there, and a path that
ends in a slash names no file. -/
def write (t : Tree) (path : Path) (content : Bytes) : Except PathError Tree :=
  let refuse (refusal : Refusal) : Except PathError Tree := .error ⟨utf8 "open", path, refusal⟩
  if path.getLast? = some Path.slash then
    let parent := ((withoutEnd path).reverse.dropWhile (· != Path.slash)).reverse ++ Path.dot
    match if longestPath < path.length then .error .nameTooLong else t.place true parent with
    | .error refusal => refuse refusal
    | .ok _ => refuse .isDirectory
  else match t.place true path with
    | .error refusal => refuse refusal
    | .ok place =>
      match t.node? place with
      | some .directory => refuse .isDirectory
      | _ => .ok (t.put place (.file content))

end Tree
end StackBound
