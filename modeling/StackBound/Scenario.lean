import StackBound.Annotation
import StackBound.Path
import StackBound.WorstCase.Search

/-! Scenarios. Each assumes some calls that the graph does not show, such as callbacks; each is
looked at on its own, over the same graph, from every entry point. -/
namespace StackBound

open CallGraph (Graph Overlay)

structure Scenario where
  label : Bytes
  /-- The file the assumed calls come from; empty for the base scenario. -/
  source : Path
  additions : Annotations

namespace Scenario

def baseLabel : Bytes := utf8 "Base (no callbacks added)"

/-- The label of the overall outcome when no scenario needs any stack. -/
def noneLabel : Bytes := utf8 "None (Base)"

def base : Scenario := ⟨baseLabel, [], .empty⟩

def count (counts : Std.HashMap Bytes Nat) (key : Bytes) : Std.HashMap Bytes Nat :=
  counts.insert key (counts.getD key 0 + 1)

/-- The name of a path among others: its last component, or the cleaned path where others have the
same last component. -/
def stem (bases : Std.HashMap Bytes Nat) (path : Path) : Bytes :=
  let name := path.base
  if 1 < bases.getD name 0 then path.clean else name

/-- Marks each repetition of a name with its number, from the second on. -/
def mark (done : Std.HashMap Bytes Nat × List Bytes) (name : Bytes) :
    Std.HashMap Bytes Nat × List Bytes :=
  let seen := count done.1 name
  let n := seen.getD name 0
  (seen, (if 1 < n then name ++ utf8 "#" ++ Bytes.ofNat n else name) :: done.2)

def labels (paths : List Path) : List Bytes :=
  let bases := (paths.map Path.base).foldl count ∅
  ((paths.map (stem bases)).foldl mark (∅, [])).2.reverse

/-- Reads one scenario from each file, in order; without files there is only the base scenario. The
first file that cannot be read ends the reading. -/
def load (t : Tree) (paths : List Path) : Except Fault (List Scenario × List Warning) :=
  if paths = [] then .ok ([base], [])
  else
    ((labels paths).zip paths).foldlM (fun (done : List Scenario × List Warning) (label, path) =>
      let (read, warnings) := Annotations.load t path
      read.map fun additions => (done.1 ++ [⟨label, path, additions⟩], done.2 ++ warnings)) ([], [])

end Scenario

structure EntryResult where
  entry : Name
  result : WorstCase
  deriving DecidableEq, Repr

/-- What one scenario comes to: the worst entry and its result, and those of every entry. -/
structure Outcome where
  label : Bytes
  entry : Name
  result : WorstCase
  entries : List EntryResult
  edges : Nat
  deriving DecidableEq, Repr

/-- Every scenario's outcome and the worst of them. -/
structure Evaluation where
  outcomes : List Outcome
  overall : Outcome
  deriving DecidableEq, Repr

namespace Outcome

/-- The outcome of a scenario before any entry is looked at. -/
def blank (label : Bytes) (edges : Nat) : Outcome := ⟨label, [], .zero, [], edges⟩

def none : Outcome := blank Scenario.noneLabel 0

/-- Takes in one more entry: the first of the worst stays. -/
def addEntry (o : Outcome) (entry : Name) (result : WorstCase) : Outcome :=
  let o := { o with entries := o.entries ++ [⟨entry, result⟩] }
  if result.greater o.result then { o with entry := entry, result := result } else o

def max (best next : Outcome) : Outcome := if next.result.greater best.result then next else best

end Outcome

namespace Scenario

def program (g : Graph) (sizes : Name → Int64) (s : Scenario) : Program :=
  .ofGraph g s.additions.overlay sizes

/-- Looks at the entries in order with one analyzer. -/
def evaluate (g : Graph) (sizes : Name → Int64) (entries : List Name) (s : Scenario) : Outcome :=
  let p := s.program g sizes
  (entries.foldl (fun (state : Outcome × Analyzer) entry =>
    let (result, analyzer) := state.2.worstCase p entry
    (state.1.addEntry entry result, analyzer))
    (.blank s.label s.additions.overlay.size, .fresh)).1

end Scenario

namespace Evaluation

def of (g : Graph) (sizes : Name → Int64) (scenarios : List Scenario) (entries : List Name) :
    Evaluation :=
  let outcomes := scenarios.map (Scenario.evaluate g sizes (Bytes.sortedSet entries))
  ⟨outcomes, outcomes.foldl .max .none⟩

/-- A canceled run stops before its first scenario. -/
def run (canceled : Bool) (g : Graph) (sizes : Name → Int64) (scenarios : List Scenario)
    (entries : List Name) : Except Fault Evaluation :=
  if canceled && !scenarios.isEmpty then .error .canceled else .ok (of g sizes scenarios entries)

def find? (e : Evaluation) (label : Bytes) : Option Outcome :=
  e.outcomes.find? (·.label = label)

end Evaluation
end StackBound
