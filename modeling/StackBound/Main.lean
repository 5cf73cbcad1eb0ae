import StackBound.CommandLine.Footprint
import StackBound.Discovery
import StackBound.RunId
import Std.Time.DateTime.Timestamp

/-! The program: lays out the files that a command may touch as a tree, answers the command, and
carries out what changed in the tree. -/
namespace StackBound

def Place.pathText (place : Place) : String :=
  "/" ++ (Bytes.join [Path.slash] place).shown

namespace Layout

/-- What is at a place, without following a link there. A link is taken to lead straight to its end. -/
def look (place : Place) : IO (Option Node) := do
  let path := (← IO.currentDir) / place.pathText
  try
    match (← path.symlinkMetadata).type with
    | .dir => return some .directory
    | .symlink => return some (.link (utf8 (← IO.FS.realPath path).toString))
    | _ => return some (.file (← IO.FS.readBinFile path).toList)
  catch _ => return none

def add (t : Tree) (place : Place) : IO Tree := do
  match ← look place with
  | some node => return t.put place node
  | none => return t

partial def follow (t : Tree) (here : Place) (pending : List Bytes) : IO Tree := do
  match pending with
  | [] => return t
  | part :: rest =>
    if part = [] ∨ part = Path.dot then follow t here rest
    else if part = Path.dotDot then follow t here.dropLast rest
    else
      let next := here ++ [part]
      match ← look next with
      | none => return t
      | some (.link target) => follow (t.put next (.link target)) [] (target.split Path.slash ++ rest)
      | some node => follow (t.put next node) next rest

def addPath (t : Tree) (path : Path) : IO Tree :=
  follow t (Tree.start t.current path) (path.split Path.slash)

partial def fill (accepts : Bytes → Bool) (t : Tree) (place : Place) : IO Tree := do
  let directory := (← IO.currentDir) / place.pathText
  let mut t := t
  for entry in ← directory.readDir do
    let next := place ++ [utf8 entry.fileName]
    match (← entry.path.symlinkMetadata).type with
    | .dir => t ← fill accepts (t.put next .directory) next
    | _ => if accepts (utf8 entry.fileName) then t ← add t next
  return t

def addDirectory (accepts : Bytes → Bool) (t : Tree) (path : Path) : IO Tree := do
  let t ← addPath t path
  match t.find true path with
  | .ok (place, .directory) => fill accepts t place
  | _ => return t

def addAll (t : Tree) (f : CommandLine.Footprint) : IO Tree := do
  let t ← f.files.foldlM addPath t
  let isOutput (name : Bytes) : Bool := Discovery.isStackUsage name || Discovery.isCallGraph name
  let t ← f.searched.foldlM (addDirectory isOutput) t
  f.whole.foldlM (addDirectory fun _ => true) t

/-- Makes the file system agree with a tree where that differs from another one. -/
def commit (before after : Tree) : IO Unit := do
  for (place, node) in before.below [] |>.reverse do
    if (after.node? place).isNone then
      match node with
      | .directory => IO.FS.removeDir place.pathText
      | _ => IO.FS.removeFile place.pathText
  for (place, node) in after.below [] do
    if before.node? place ≠ some node then
      match node with
      | .file content => IO.FS.writeBinFile place.pathText ⟨content.toArray⟩
      | .directory => IO.FS.createDirAll place.pathText
      | .link _ => pure ()

end Layout

/-- What a command finds when it starts, before any file is laid out. -/
def CommandLine.World.current : IO CommandLine.World := do
  let setting (name : String) : IO Bytes := return utf8 ((← IO.getEnv name).getD "")
  return {
    tree := .bare (Path.parts (utf8 (← IO.currentDir).toString))
    now := .ofUnix (← Std.Time.Timestamp.now).toNanosecondsSinceUnixEpoch.val
    cacheHome := ← setting "XDG_CACHE_HOME"
    home := ← setting "HOME"
    runId := RunId.ofRandom (← IO.getRandomBytes RunId.byteCount.toUSize).toList
    version := .unstamped }

end StackBound

open StackBound in
def main (args : List String) : IO UInt32 := do
  let words := args.map utf8
  let mut w ← CommandLine.World.current
  if let .ok request := CommandLine.Request.parse words then
    w := { w with tree := ← Layout.addAll w.tree request.projectFootprint }
    w := { w with tree := ← Layout.addAll w.tree (request.footprint w) }
  let reply := CommandLine.answer w words
  (← IO.getStdout).write ⟨reply.output.toArray⟩
  Layout.commit w.tree reply.tree
  match reply.fault with
  | none => return 0
  | some fault =>
    IO.eprintln ("Error: " ++ fault.text.shown)
    return 1
