import StackBound.Symbol
import StackBound.Tree
import StackBound.Warning

/-! Finding the compiler's output files. Directories are searched in the order given, each by name and
with everything below it; a file is listed once, under its shortest path. Symbolic links below a root
are not followed. -/
namespace StackBound
namespace Discovery

inductive Kind
  | stackUsage
  | callGraph
  deriving DecidableEq, Repr

def isStackUsage (name : Bytes) : Bool := name.endsWith (utf8 ".su")

def isCallGraph (name : Bytes) : Bool :=
  Bytes.occursIn (utf8 ".cgraph") name || Bytes.occursIn (utf8 ".ipa") name

def Kind.accepts : Kind → Bytes → Bool
  | .stackUsage => isStackUsage
  | .callGraph => isCallGraph

/-- What the search is permitted: to look a path up, and to list the directory that has a path. A tree
says nothing of this. -/
structure Access where
  looks : Path → Bool
  lists : Path → Bool

def Access.all : Access := ⟨fun _ => true, fun _ => true⟩

def Access.stat (access : Access) (t : Tree) (path : Path) : Except PathError (Place × Node) :=
  if access.looks path then t.stat path else .error ⟨utf8 "stat", path, .denied⟩

/-- The warning about a directory that cannot be listed. -/
def skipping (path : Path) (refusal : Refusal) : Warning :=
  .skipped path 0 (utf8 "skipping: " ++ PathError.text ⟨utf8 "open", path, refusal⟩)

def gather (found : List (List Path × List Warning)) : List Path × List Warning :=
  (found.flatMap (·.1), found.flatMap (·.2))

/-- What one entry of a directory contributes; a directory contributes what comes of entering it. -/
def entry (accepts : Bytes → Bool) (path : Path) (child : Bytes × Node)
    (enter : Path → List Path × List Warning) : List Path × List Warning :=
  let path := Path.join [path, child.1]
  match child.2 with
  | .file _ => (if accepts child.1 then [path] else [], [])
  | .link _ => ([], [])
  | .directory => enter path

/-- What the directory at a place contributes, which has this path. Neither the path nor anything that
is entered leads through a link, so a longer path leads to the place below, if it is not too long. -/
def inside (t : Tree) (accepts : Bytes → Bool) (path : Path) (place : Place) (access : Access := .all) :
    List Path × List Warning :=
  gather ((t.children place).attach.map fun ⟨child, _⟩ =>
    entry accepts path child fun path =>
      if Tree.longestPath < path.length then ([], [skipping path .nameTooLong])
      else if access.lists path then inside t accepts path (place ++ [child.1]) access
      else ([], [skipping path .denied]))
termination_by t.deepest - place.length
decreasing_by
  have deeper := Tree.length_lt_deepest ‹child ∈ t.children place›
  rw [List.length_append, List.length_singleton]
  omega

/-- What one root contributes. Each directory in it is looked up again by its path. -/
def root (t : Tree) (accepts : Bytes → Bool) (dir : Path) (access : Access := .all) :
    List Path × List Warning :=
  match access.stat t dir with
  | .error e => ([], [.skipped dir 0 (utf8 "skipping input directory: " ++ e.text)])
  | .ok (_, .directory) =>
    match t.find false dir with
    | .ok (place, .directory) =>
      if access.lists dir then
        gather ((t.children place).map fun child => entry accepts dir child fun path =>
          match t.find true path with
          | .ok (place, .directory) =>
            if access.lists path then inside t accepts path place access
            else ([], [skipping path .denied])
          | .ok _ => ([], [skipping path .notDirectory])
          | .error refusal => ([], [skipping path refusal]))
      else ([], [skipping dir .denied])
    | _ => ([], [])
  | .ok _ => ([], [.skipped dir 0 (utf8 "skipping input directory: not a directory")])

/-- The accepted files below some directories, and a warning for each directory that cannot be
searched. -/
def files (t : Tree) (accepts : Bytes → Bool) (dirs : List Path) (access : Access := .all) :
    List Path × List Warning :=
  let found := gather (dirs.map (root t accepts · access))
  (Name.distinct found.1, found.2)

end Discovery
end StackBound
