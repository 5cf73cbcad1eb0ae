import StackBound.Symbol
import Std.Data.HashMap
import Std.Data.HashSet

/-! Who calls whom. A graph keeps callers and the callees of each caller in the order in which they
were first added; an overlay holds further calls that are assumed beside a graph. -/
namespace StackBound
namespace CallGraph

structure Edge where
  caller : Name
  callee : Name
  deriving DecidableEq, Hashable, Repr

structure Graph where
  targets : Std.HashMap Name (Array Name)
  known : Std.HashSet Edge
  sources : Array Name
  /-- How many calls were added. -/
  count : Nat
  /-- A call is known exactly if it is listed for its caller. -/
  agree : ∀ caller callee, ⟨caller, callee⟩ ∈ known ↔ callee ∈ targets.getD caller #[]

namespace Graph

def empty : Graph := ⟨∅, ∅, #[], 0, by simp⟩

def hasEdge (g : Graph) (caller callee : Name) : Bool := g.known.contains ⟨caller, callee⟩

/-- A call put into both views at once. -/
theorem agree_insert (g : Graph) (caller callee a b : Name) :
    ⟨a, b⟩ ∈ g.known.insert ⟨caller, callee⟩ ↔
      b ∈ (g.targets.alter caller fun known => some ((known.getD #[]).push callee)).getD a #[] := by
  simp only [Std.HashSet.mem_insert, beq_iff_eq, Edge.mk.injEq, Std.HashMap.getD_alter, g.agree]
  by_cases same : caller = a
  · subst same
    simp [Std.HashMap.getD_eq_getD_getElem?, eq_comm, or_comm]
  · simp [same]

/-- Adds a call and tells whether it is new. Calls from or to an empty name are left out. -/
def addEdge (g : Graph) (caller callee : Name) : Graph × Bool :=
  if caller = [] ∨ callee = [] ∨ g.hasEdge caller callee then (g, false)
  else
    let sources := if g.targets.contains caller then g.sources else g.sources.push caller
    ({ targets := g.targets.alter caller fun known => some ((known.getD #[]).push callee)
       known := g.known.insert ⟨caller, callee⟩
       sources := sources
       count := g.count + 1
       agree := g.agree_insert caller callee }, true)

def add (g : Graph) (edge : Edge) : Graph := (g.addEdge edge.caller edge.callee).1

def ofEdges (edges : List Edge) : Graph := edges.foldl add empty

def callees (g : Graph) (name : Name) : List Name := (g.targets.getD name #[]).toList

def hasCaller (g : Graph) (name : Name) : Bool := !(g.callees name).isEmpty

def callers (g : Graph) : List Name := g.sources.toList

def edges (g : Graph) : List Edge :=
  g.callers.flatMap fun caller => (g.callees caller).map fun callee => ⟨caller, callee⟩

def calleeNames (g : Graph) : List Name := g.edges.map (·.callee)

/-- The names called by anyone, in ascending order. -/
def calleeSet (g : Graph) : List Name := Bytes.sortedSet g.calleeNames

/-- The names that call or are called, in ascending order. -/
def functions (g : Graph) : List Name := Bytes.sortedSet (g.callers ++ g.calleeNames)

def callerCount (g : Graph) : Nat := g.sources.size

def edgeCount (g : Graph) : Nat := g.count

end Graph

/-- Calls assumed in addition to those of a graph. -/
structure Overlay where
  extra : Std.HashMap Name (List Name)

namespace Overlay

def empty : Overlay := ⟨∅⟩

def own (o : Overlay) (name : Name) : List Name := o.extra.getD name []

/-- Adds a call after the others of its caller unless it is there already. -/
def add (o : Overlay) (caller callee : Name) : Overlay :=
  if (o.own caller).contains callee then o
  else ⟨o.extra.insert caller (o.own caller ++ [callee])⟩

def ofEdges (edges : List Edge) : Overlay := edges.foldl (fun o e => o.add e.caller e.callee) empty

/-- The assumed calls that are new so far, with one more looked at. -/
def accept (g : Graph) (caller : Name) (added : List Name) (callee : Name) : List Name :=
  if g.hasEdge caller callee || added.contains callee then added else added ++ [callee]

/-- The calls of a function with the overlay beside the graph: first those of the graph, then the
assumed ones, each once. Where there is no graph, the empty one stands for it. -/
def callees (o : Overlay) (g : Graph) (name : Name) : List Name :=
  g.callees name ++ (o.own name).foldl (accept g name) []

def callers (o : Overlay) : List Name := Bytes.sorted o.extra.keys

def edges (o : Overlay) : List Edge :=
  o.callers.flatMap fun caller => (o.own caller).map fun callee => ⟨caller, callee⟩

def calleeNames (o : Overlay) : List Name := o.edges.map (·.callee)

def calleeSet (o : Overlay) : List Name := Bytes.sortedSet o.calleeNames

def size (o : Overlay) : Nat := o.edges.length

end Overlay
end CallGraph
end StackBound
