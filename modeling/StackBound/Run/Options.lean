import StackBound.Fault
import StackBound.Path
import StackBound.Symbol

/-! What a run is asked to do. -/
namespace StackBound

structure Options where
  elfFile : Path
  suDirs : List Path
  cgraphDirs : List Path
  /-- The entry points asked for. None at all stands for the standard one; an empty list leaves only
  the handlers of the vector table. -/
  entryPoints : Option (List Name)
  vectorTable : Name
  ignoreFile : Path
  addCallFiles : List Path
  reachability : Bool
  refresh : Bool
  /-- Whether the options were already checked and completed. -/
  complete : Bool
  deriving DecidableEq, Repr

namespace Options

def standardEntry : Name := utf8 "main"

def blank : Options := ⟨[], [], [], none, [], [], [], false, false, false⟩

/-- Lets each kind of directory stand in for the other where that is missing. -/
def withDirs (o : Options) : Options :=
  { o with
    suDirs := if o.suDirs = [] then o.cgraphDirs else o.suDirs
    cgraphDirs := if o.cgraphDirs = [] then o.suDirs else o.cgraphDirs }

def withEntries (o : Options) : Options :=
  { o with
    entryPoints := some (Name.normalizeAll (o.entryPoints.getD [standardEntry]))
    complete := true }

/-- Checks the options and fills in what they leave open; complete ones stay as they are. A missing
binary is found only after the directories have been filled in. -/
def check (o : Options) : Options × Option Fault :=
  if o.complete then (o, none)
  else if o.suDirs = [] ∧ o.cgraphDirs = [] then
    (o, some (.coded .invalidInput
      (utf8 "at least one stack usage or call graph directory is required")))
  else
    let o := o.withDirs
    if o.vectorTable ≠ [] ∧ o.elfFile = [] then
      (o, some (.coded .invalidInput
        (utf8 "vector table " ++ o.vectorTable.quoted ++ utf8 " requires an ELF file")))
    else (o.withEntries, none)

end Options
end StackBound
