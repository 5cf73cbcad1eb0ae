import StackBound.Report
import StackBound.Run.Analysis

/-! The report of a finished run. -/
namespace StackBound
namespace Report

def finding (o : Outcome) : Finding :=
  ⟨o.label, o.entry, o.result.total, o.result.unbounded, some o.result.path, o.result.cycle⟩

/-- The overall worst case; only a bounded one has frames. -/
def worstOf (a : Analysis) : Worst :=
  let overall := a.evaluation.overall
  { toFinding := finding overall
    frames :=
      if overall.result.unbounded then []
      else WorstCase.breakdown a.table.frameSize overall.result.path }

def note (w : Warning) : Note := ⟨w.tier.word, w.source, w.line, w.message⟩

def ofAnalysis (runId version : Bytes) (a : Analysis) : Report where
  runId := runId
  version := version
  entryPoints := some a.entryPoints
  isrs := a.isrs
  scenarios :=
    if a.evaluation.outcomes = [] then none else some (a.evaluation.outcomes.map finding)
  worst := worstOf a
  uncalled := a.uncalled
  unresolved := a.unresolved
  warnings := a.warnings.map note
  stats :=
    { suFiles := Int64.ofNat a.suFiles
      cgraphFiles := Int64.ofNat a.cgraphFiles
      functions := Int64.ofNat a.table.size
      callers := Int64.ofNat a.graph.callerCount
      edges := Int64.ofNat a.graph.edgeCount
      parseMs := 0
      analyzeMs := 0 }

end Report
end StackBound
