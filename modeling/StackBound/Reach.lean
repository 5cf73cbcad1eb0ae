import StackBound.CallGraph.Graph
import StackBound.StackUsage.Table

/-! Functions with a known frame that nobody seems to call: dead code, or code reached through calls
the graph does not show. -/
namespace StackBound

open CallGraph (Graph Overlay)
open StackUsage (Table)

structure Uncalled where
  name : Name
  rawName : Name
  size : Int64
  deriving DecidableEq, Repr

namespace Uncalled

/-- The names that count as called. -/
def called (g : Graph) (overlays : List Overlay) (entries : List Name) : Std.HashSet Name :=
  .ofList (g.calleeNames ++ overlays.flatMap Overlay.calleeNames ++ entries)

/-- The identities of a table that are no callee and no entry, in ascending order. -/
def find (table : Table) (g : Graph) (overlays : List Overlay) (entries : List Name) :
    List Uncalled :=
  let called := called g overlays entries
  (table.identities.filter (!called.contains ·)).map fun name =>
    ⟨name, table.rawName name, table.frameSize name⟩

def bytes (uncalled : List Uncalled) : Int64 := uncalled.foldl (fun n f => n + f.size) 0

end Uncalled
end StackBound
