import StackBound.CallGraph.Resolution
import StackBound.Reach
import StackBound.Run.Fetch
import StackBound.Run.Options
import StackBound.Scenario
import StackBound.Vector.Elf

/-! A whole run: frame sizes and call graph are read, scenarios and entry points gathered, and every
scenario is evaluated from every entry. Faults end a run; all else that goes wrong is a warning. -/
namespace StackBound

open CallGraph (Dump Gathered Graph Resolution Unresolved)
open StackUsage (Listing Table)

structure Analysis where
  table : Table
  graph : Graph
  unresolved : List Unresolved
  entryPoints : List Name
  isrs : List Name
  scenarios : List Scenario
  evaluation : Evaluation
  reachability : Bool
  uncalled : List Uncalled
  warnings : List Warning
  suFiles : Nat
  cgraphFiles : Nat
  symbols : Nat

namespace Analysis

/-- The scenario with a label. -/
def scenario? (a : Analysis) (label : Bytes) : Option Scenario :=
  a.scenarios.find? (·.label = label)

end Analysis

def Outcome.event (o : Outcome) : Event :=
  .scenarioFinished o.label o.result.total o.result.unbounded

namespace Run

/-- Scans with the warnings about finding them. -/
structure Inputs (α : Type) where
  scans : List (Path × α)
  warnings : List Warning

/-- Finds and fetches all files of one kind. `size` tells from the scans how many records they hold;
an unreadable file leaves those before it to be counted. -/
def gather (c : Caching σ) (f : Format α) (tree : Tree) (refresh : Bool) (dirs : List Path)
    (size : Bool → List α → Nat) (t : Trace σ) : Except Fault (Inputs α) × Trace σ :=
  let word := Format.word f.kind
  let (paths, warnings) := Discovery.files tree f.kind.accepts dirs
  let t := t.add (.parseStarted word (count paths.length))
  let (fetched, t) := fetchAll c f tree refresh [] paths t
  let records := size fetched.fault.isNone (fetched.scans.map (·.2))
  let t := t.add (.parseFinished word (count records) 0 fetched.fault)
  match fetched.fault with
  | some fault => (.error fault, t)
  | none => (.ok ⟨fetched.scans, warnings⟩, t)

def recordCount (_ : Bool) (listings : List Listing) : Nat :=
  (listings.map (·.records.length)).foldl (· + ·) 0

def edgeCount (ignored : CallGraph.Edge → Bool) (whole : Bool) (dumps : List Dump) : Nat :=
  if whole then ((Gathered.ofDumps dumps).build ignored).graph.edgeCount else 0

def tableOf (listings : List (Path × Listing)) : Table :=
  listings.foldl (fun table listing => table.merge listing.2.records) .empty

def ignoredCalls (tree : Tree) (file : Path) :
    Except Fault ((CallGraph.Edge → Bool) × List Warning) :=
  if file = [] then .ok (fun _ => false, [])
  else
    let (read, warnings) := Annotations.load tree file
    read.map fun set => (set.has, warnings)

def noStackUsage (dirs : List Path) : Fault :=
  .coded .noStackUsage
    (utf8 "no stack usage records found in: [" ++ Bytes.join (utf8 " ") dirs ++
      utf8 "] (build with -fstack-usage)")

def handlers (tree : Tree) (o : Options) : List Name × List Warning :=
  if o.vectorTable = [] then ([], [])
  else
    let (names, warnings) := Vector.locateFile tree o.elfFile o.vectorTable
    (names.getD [], warnings)

def knownNames (g : Graph) (scenarios : List Scenario) : Std.HashSet Name :=
  .ofList (g.functions ++ scenarios.flatMap fun s =>
    s.additions.toList.flatMap fun call => [call.caller, call.callee])

/-- A warning for each entry of which nothing is known. -/
def entryWarnings (table : Table) (g : Graph) (scenarios : List Scenario) (entries : List Name) :
    List Warning :=
  let known := knownNames g scenarios
  (entries.filter fun name => (table.lookup name).isNone && !known.contains name).map fun name =>
    .skipped (utf8 "entry points") 0
      (utf8 "entry point " ++ name.quoted ++
        utf8 " has no stack usage or call graph information; counted as 0 bytes")

/-- What a run starts from: its entries, the handlers among them, and what is to be said about both. -/
structure Entries where
  names : List Name
  isrs : List Name
  warnings : List Warning

/-- Merges the entry points asked for with the handlers found. All are kept, whatever is known. -/
def resolveEntries (table : Table) (g : Graph) (scenarios : List Scenario) (asked : List Name)
    (found : List Name × List Warning) : Entries :=
  let names := Bytes.sortedSet (asked ++ found.1)
  ⟨names, found.1, found.2 ++ entryWarnings table g scenarios names⟩

/-- Everything an evaluation needs, from inputs already read. The evaluation itself is left open. -/
def assemble (tree : Tree) (o : Options) (listings : Inputs Listing)
    (ignored : (CallGraph.Edge → Bool) × List Warning) (dumps : Inputs Dump) :
    Except Fault Analysis := do
  let table := tableOf listings.scans
  let gathered := Gathered.ofDumps (dumps.scans.map (·.2))
  let resolution := gathered.build ignored.1
  let (scenarios, scenarioWarnings) ← Scenario.load tree o.addCallFiles
  let entries := resolveEntries table resolution.graph scenarios (o.entryPoints.getD [])
    (handlers tree o)
  if entries.names = [] then
    throw (.coded .noEntryPoints (utf8 "no valid entry points found for analysis"))
  return {
    table := table
    graph := resolution.graph
    unresolved := resolution.unresolved
    entryPoints := entries.names
    isrs := entries.isrs
    scenarios := scenarios
    evaluation := ⟨[], .none⟩
    reachability := o.reachability
    uncalled :=
      if o.reachability then
        Uncalled.find table resolution.graph (scenarios.map (·.additions.overlay)) entries.names
      else []
    warnings :=
      listings.warnings ++ listings.scans.flatMap (fun scan => scan.2.warnings scan.1) ++
      ignored.2 ++ dumps.warnings ++ gathered.warnings o.cgraphDirs ++ scenarioWarnings ++
      entries.warnings
    suFiles := listings.scans.length
    cgraphFiles := resolution.files
    symbols := resolution.symbols }

/-- Evaluates the scenarios of an analysis. -/
def evaluate (canceled : Bool) (a : Analysis) (t : Trace σ) : Except Fault Analysis × Trace σ :=
  let t := t.add (.analysisStarted (count a.scenarios.length) (count a.entryPoints.length))
  match Evaluation.run canceled a.graph a.table.frameSize a.scenarios a.entryPoints with
  | .error fault =>
    (.error (.during (utf8 "analyze") fault), t.add (.analysisFinished 0 (some fault)))
  | .ok evaluation =>
    let t := evaluation.outcomes.foldl (fun t o => t.add o.event) t
    (.ok { a with evaluation := evaluation }, t.add (.analysisFinished 0 none))

/-- Goes through all stages with complete options. The calls to ignore are read before the dumps, and
the scenarios after them. -/
def stages (c : Caching σ) (tree : Tree) (canceled : Bool) (o : Options) (t : Trace σ) :
    Except Fault Analysis × Trace σ :=
  match gather c .stackUsage tree o.refresh o.suDirs recordCount t with
  | (.error fault, t) => (.error fault, t)
  | (.ok listings, t) =>
    if (tableOf listings.scans).size = 0 then (.error (noStackUsage o.suDirs), t)
    else match ignoredCalls tree o.ignoreFile with
      | .error fault => (.error fault, t)
      | .ok ignored =>
        match gather c .callGraph tree o.refresh o.cgraphDirs (edgeCount ignored.1) t with
        | (.error fault, t) => (.error fault, t)
        | (.ok dumps, t) =>
          match assemble tree o listings ignored dumps with
          | .error fault => (.error fault, t)
          | .ok analysis => evaluate canceled analysis t

def execute (c : Caching σ) (tree : Tree) (canceled : Bool) (o : Options) (t : Trace σ) :
    Except Fault Analysis × Trace σ :=
  match o.check with
  | (_, some fault) => (.error fault, t)
  | (o, none) => stages c tree canceled o t

end Run
end StackBound
