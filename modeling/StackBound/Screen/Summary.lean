import StackBound.Report
import StackBound.Run.Analysis
import StackBound.Screen.Grid

/-! A finished run as a person reads it: what was found, every scenario's worst case, the functions
nobody calls if they were asked for, the overall worst case, and what could not be taken into
account. -/
namespace StackBound
namespace Summary

open Screen

def number (n : Nat) : Bytes := Bytes.ofNat n

def worst (r : WorstCase) : Bytes :=
  if r.unbounded then utf8 "unbounded (recursion)" else Bytes.ofInt64 r.total ++ utf8 " bytes"

def pathLines (frames : List WorstCase.Frame) : List Bytes :=
  frames.mapIdx fun depth f =>
    Bytes.spaces (2 * depth) ++ f.function ++ utf8 " (size: " ++ Bytes.ofInt64 f.size ++
      utf8 ", total: " ++ Bytes.ofInt64 f.cumulative ++ utf8 ")"

def warningLines (a : Analysis) (tier : Tier) : Bytes :=
  (a.warnings.filter (·.tier = tier)).flatMap fun w => status .warn w.text

def stages (a : Analysis) : Bytes :=
  status .ok (utf8 "Found stack usage for " ++ number a.table.size ++ utf8 " functions (" ++
    number a.suFiles ++ utf8 " .su files)") ++
  status .ok (utf8 "Built call graph with " ++ number a.graph.callerCount ++
    utf8 " calling functions and " ++ number a.graph.edgeCount ++ utf8 " edges (" ++
    number a.cgraphFiles ++ utf8 " dumps)") ++
  (if a.unresolved.isEmpty then []
   else detail (number a.unresolved.length ++
     utf8 " call references could not be resolved (listed with --verbose)")) ++
  status .ok (utf8 "Entry points: " ++ Bytes.join (utf8 ", ") a.entryPoints) ++
  (if a.isrs.isEmpty then []
   else detail (number a.isrs.length ++ utf8 " interrupt handlers found in the vector table")) ++
  warningLines a .local

def scenarioRow (o : Outcome) : List Bytes :=
  [o.label, if o.entry = [] then utf8 "—" else o.entry, worst o.result, number o.edges]

def scenarioGrid (outcomes : List Outcome) : Grid :=
  .ofTitles ["Scenario", "Entry", "Worst case", "Added calls"] (outcomes.map scenarioRow) 1

def scenarios (a : Analysis) : Bytes :=
  heading "Scenario Results" ++ line (scenarioGrid a.evaluation.outcomes).text

/-- The name a function was compiled under is shown only where it differs. -/
def uncalledRow (u : Uncalled) : List Bytes :=
  [u.name, Bytes.ofInt64 u.size, if u.rawName = u.name then [] else u.rawName]

def uncalledGrid (uncalled : List Uncalled) : Grid :=
  ⟨[⟨utf8 "Function", false⟩, ⟨utf8 "Bytes", true⟩, ⟨utf8 "As compiled", false⟩],
    uncalled.map uncalledRow, 1⟩

def uncalled (a : Analysis) : Bytes :=
  heading "Potentially Uncalled Functions" ++
  if a.uncalled.isEmpty then
    status .info (utf8 <| "All functions with stack usage are called, are entry points, " ++
      "or are added by a scenario.")
  else
    status .info (number a.uncalled.length ++ utf8 " functions (" ++
      Bytes.ofInt64 (Uncalled.bytes a.uncalled) ++
      utf8 " bytes) have stack usage but no caller, are not entry points,") ++
    detail (utf8 <| "and are not added by any scenario. They may be callbacks missing from " ++
      "--add-calls, or dead code.") ++
    line (uncalledGrid a.uncalled).text

def overall (a : Analysis) : Bytes :=
  let o := a.evaluation.overall
  heading "Overall Analysis Final Result" ++
  if o.label = Scenario.noneLabel ∧ o.result.path = [] then
    status .fail (utf8 "Could not determine any valid call path")
  else
    keyValue "Scenario" o.label ++ keyValue "Entry point" o.entry ++
    if o.result.unbounded then
      status .fail (utf8 "Recursion detected: worst-case stack usage is unbounded") ++
      detail (utf8 "Recursive cycle:") ++
      line (utf8 "  " ++ block (WorstCase.arrows o.result.cycle)) ++
      detail (utf8 "Reached via:") ++
      line (utf8 "  " ++ WorstCase.arrows o.result.path)
    else
      keyValue "Worst case" (Bytes.ofInt64 o.result.total ++ utf8 " bytes") ++
      line [] ++
      status .info (utf8 "Worst-case call path (function, size, cumulative):") ++
      (pathLines (WorstCase.breakdown a.table.frameSize o.result.path)).flatMap fun text =>
        line (utf8 "  " ++ text)

/-- What the run as a whole had to do without. -/
def deferred (a : Analysis) : Bytes :=
  match warningLines a .deferred with
  | [] => []
  | lines => heading "Analysis Warnings" ++ lines

def text (a : Analysis) : Bytes :=
  stages a ++ scenarios a ++ (if a.reachability then uncalled a else []) ++ overall a ++ deferred a

/-! ### Comparison with an earlier report -/

def signed (n : Int64) : Bytes :=
  if n < 0 then Bytes.ofInt64 n else utf8 "+" ++ Bytes.ofInt64 n

/-- The worst case of an earlier report beside the present one. -/
structure Delta where
  runId : Bytes
  before : Int64
  after : Int64
  wasUnbounded : Bool
  unbounded : Bool
  deriving DecidableEq, Repr

namespace Delta

def since (base : Report) (now : WorstCase) : Delta :=
  ⟨base.runId, base.worst.total, now.total, base.worst.unbounded, now.unbounded⟩

def text (d : Delta) : Bytes :=
  let before := if d.wasUnbounded then utf8 "unbounded" else Bytes.ofInt64 d.before ++ utf8 " bytes"
  let after := Bytes.ofInt64 d.after ++ utf8 " bytes"
  if d.unbounded then before ++ utf8 " -> unbounded"
  else if d.wasUnbounded then before ++ utf8 " -> " ++ after
  else before ++ utf8 " -> " ++ after ++ utf8 " (" ++ signed (d.after - d.before) ++ utf8 ")"

end Delta

def change (base : Report) (now : WorstCase) : Bytes := (Delta.since base now).text

def comparison (base : Report) (now : WorstCase) : Bytes :=
  line [] ++ keyValue "Baseline" (change base now)

end Summary
end StackBound
