import StackBound.CommandLine.Reply

/-! The part of the file system that a command may touch, so that no more than that has to be laid
out before it runs. -/
namespace StackBound
namespace CommandLine

structure Footprint where
  /-- Files that are read or written. -/
  files : List Path
  /-- Directories that are searched for the compiler's output. -/
  searched : List Path
  /-- Directories that are needed with all they hold. -/
  whole : List Path
  deriving DecidableEq, Repr

namespace Footprint

def none : Footprint := ⟨[], [], []⟩

def named (f : Footprint) : Footprint :=
  ⟨f.files.filter (· ≠ []), f.searched.filter (· ≠ []), f.whole.filter (· ≠ [])⟩

end Footprint

namespace Request

def inputs? : Request → Option InputRequest
  | .analyze r => some r.inputs
  | .graph r => some r.inputs
  | _ => none

def ownFiles : Request → List Path
  | .analyze r => [r.json, r.baseline]
  | .graph r => [r.output]
  | _ => []

/-- The project file that decides what else is read. -/
def projectFootprint (r : Request) : Footprint :=
  match r.inputs? with
  | some inputs =>
    { Footprint.none with files := [if inputs.config = [] then Project.fileName else inputs.config] }
  | none => .none

/-- All that a request may touch, in a world that has the project file. -/
def footprint (r : Request) (w : World) : Footprint :=
  let cache := (Cache.Directory.standard w.cacheHome w.home programName).toOption.toList
  let inputs : Footprint := match r.inputs?.map fun i => (w.project i).map i.options with
    | some (.ok o) => ⟨o.elfFile :: o.ignoreFile :: o.addCallFiles, o.suDirs ++ o.cgraphDirs, []⟩
    | _ => .none
  Footprint.named
    { inputs with files := r.projectFootprint.files ++ r.ownFiles ++ inputs.files, whole := cache }

end Request
end CommandLine
end StackBound
