import StackBound.CallGraph.Dump
import StackBound.CallGraph.Graph
import StackBound.Warning

/-! From dumps to a graph. All dumps are gathered first, so that an identifier may be defined in one
and used in another; then every reference is replaced by the function it stands for. -/
namespace StackBound
namespace CallGraph

/-- A reference without a definition in any dump. -/
structure Unresolved where
  caller : Name
  ref : Bytes
  deriving DecidableEq, Repr

/-- The union of some dumps: the last name given for each identifier, and the references of each raw
caller in the order in which callers were first seen. -/
structure Gathered where
  symbols : Std.HashMap Bytes Name
  refs : Std.HashMap Name (Array Bytes)
  order : Array Name
  files : Nat

structure Resolution where
  graph : Graph
  unresolved : List Unresolved
  files : Nat
  symbols : Nat

namespace Gathered

def empty : Gathered := ⟨∅, ∅, #[], 0⟩

def addCalls (g : Gathered) (list : CallList) : Gathered :=
  let order := if g.refs.contains list.caller then g.order else g.order.push list.caller
  { g with
    refs := g.refs.alter list.caller fun known => some ((known.getD #[]) ++ list.refs.toArray)
    order := order }

def add (g : Gathered) (dump : Dump) : Gathered :=
  let symbols := dump.definitions.foldl (fun known d => known.insert d.id d.name) g.symbols
  dump.calls.foldl addCalls { g with symbols := symbols, files := g.files + 1 }

def ofDumps (dumps : List Dump) : Gathered := dumps.foldl add empty

/-- Every reference with its raw caller, by caller. -/
def references (g : Gathered) : List (Name × Bytes) :=
  g.order.toList.flatMap fun caller => (g.refs.getD caller #[]).toList.map (caller, ·)

def resolve (g : Gathered) (reference : Name × Bytes) : Edge ⊕ Unresolved :=
  let caller := reference.1.normalize
  match g.symbols[reference.2]? with
  | some name => .inl ⟨caller, name.normalize⟩
  | none => .inr ⟨caller, reference.2⟩

def resolved (g : Gathered) : List Edge :=
  g.references.filterMap fun r => (g.resolve r).getLeft?

def unresolved (g : Gathered) : List Unresolved :=
  g.references.filterMap fun r => (g.resolve r).getRight?

/-- The graph of all resolved calls but the ignored ones. -/
def build (g : Gathered) (ignored : Edge → Bool) : Resolution where
  graph := .ofEdges (g.resolved.filter (!ignored ·))
  unresolved := g.unresolved
  files := g.files
  symbols := g.symbols.size

/-- Without any dump there is nothing to follow, which is worth a warning. -/
def warnings (g : Gathered) (searched : List Bytes) : List Warning :=
  if g.files = 0 then
    [.degraded (utf8 "call graph")
      (utf8 "no .cgraph or .ipa files found in: " ++ Bytes.join (utf8 ", ") searched ++
        utf8 " (build with -fdump-ipa-cgraph to generate them)")]
  else []

end Gathered
end CallGraph
end StackBound
