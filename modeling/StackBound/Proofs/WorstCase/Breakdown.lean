import StackBound.Proofs.CallGraph.Order
import StackBound.Proofs.Run.Evaluated
import StackBound.Proofs.Run.Fallback
import StackBound.Proofs.WorstCase.Trail
import StackBound.Run.Summary

/-! The breakdown of a path, function by function. It sums up the frames from the start on, where the
search summed them up from the end; as sums wrap, both come to the exact sum brought into 64 bits, and so
to the same total. No size is too large for that, and none need be positive. -/
namespace StackBound

open CallGraph (Graph Overlay)

theorem stackUse_append (sizes : Name → Int64) (path rest : List Name) :
    stackUse sizes (path ++ rest) = stackUse sizes path + stackUse sizes rest := by
  simp [stackUse]

namespace WorstCase

variable (sizes : Name → Int64)

def cumulative (frames : List Frame) : Int64 := frames.getLast?.elim 0 (·.cumulative)

/-- One more function adds one more frame. -/
theorem breakdown_concat (path : List Name) (fn : Name) :
    breakdown sizes (path ++ [fn]) = breakdown sizes path ++
      [⟨fn, sizes fn, cumulative (breakdown sizes path) + sizes fn⟩] := by
  rw [breakdown, breakdown, List.foldl_append, List.foldl_cons, List.foldl_nil, addFrame,
    List.reverse_cons, cumulative, List.getLast?_reverse]

theorem map_function_breakdown (path : List Name) :
    (breakdown sizes path).map (·.function) = path := by
  induction path using List.reverseRecOn with
  | nil => rfl
  | append_singleton path fn ih => rw [breakdown_concat, List.map_append, ih, List.map_singleton]

/-- The last sum is the exact one, brought into range. -/
theorem toInt_cumulative_breakdown (path : List Name) :
    (cumulative (breakdown sizes path)).toInt = (stackUse sizes path).bmod (2 ^ 64) := by
  induction path using List.reverseRecOn with
  | nil => rfl
  | append_singleton path fn ih =>
    rw [breakdown_concat, cumulative, List.getLast?_concat, stackUse_append, stackUse_cons,
      stackUse_nil, Int.add_zero, Int.add_comm]
    show (cumulative (breakdown sizes path) + sizes fn).toInt = _
    rw [Int64.add_comm]
    exact toInt_add_of_bmod ih

theorem breakdown_ne_nil {path : List Name} (called : path ≠ []) : breakdown sizes path ≠ [] := by
  rwa [Ne, ← List.map_eq_nil_iff (f := Frame.function), map_function_breakdown]

/-- Some frames tell an answer function by function: they are those of its path, and end in its total. -/
structure Explains (frames : List Frame) (answer : WorstCase) : Prop where
  nonempty : frames ≠ []
  functions : frames.map (·.function) = answer.path
  total : frames.getLast?.map (·.cumulative) = some answer.total

end WorstCase

open WorstCase (Explains breakdown)

theorem Program.explains_worst {p : Program} {active : List Name} {fn : Name}
    (finite : (p.worst active fn).unbounded = false) :
    Explains (breakdown p.frameSize (p.worst active fn).path) (p.worst active fn) := by
  obtain ⟨path, total⟩ := total_worst finite
  have called : (p.worst active fn).path ≠ [] := fun none => by simpa [none] using path.head
  have nonempty := WorstCase.breakdown_ne_nil p.frameSize called
  refine ⟨nonempty, WorstCase.map_function_breakdown p.frameSize _, ?_⟩
  have sum := WorstCase.toInt_cumulative_breakdown p.frameSize (p.worst active fn).path
  rw [← total, Int64.toInt_inj, WorstCase.cumulative, List.getLast?_eq_some_getLast nonempty] at sum
  rw [List.getLast?_eq_some_getLast nonempty]
  exact congrArg some sum

/-- A function without calls has its own frame only. -/
theorem Program.worst_of_leaf {p : Program} {active : List Name} {fn : Name} (new : fn ∉ active)
    (leaf : p.callees fn = []) : p.worst active fn = ⟨p.frameSize fn, false, [fn], []⟩ := by
  rw [worst_of_not_mem new, worstCallee, leaf]
  simp [WorstCase.extend, WorstCase.zero]

/-- Without assumed calls there are those of the graph. -/
theorem Program.callees_ofGraph_empty (g : Graph) (sizes : Name → Int64) (fn : Name) :
    (Program.ofGraph g .empty sizes).callees fn = g.callees fn := by
  show g.callees fn ++ (Overlay.empty.own fn).foldl (Overlay.accept g fn) [] = _
  rw [Overlay.own_empty, List.foldl_nil, List.append_nil]

/-- The report of a run explains its overall result, unless recursion is reached or no stack is asked
for. -/
theorem Analysis.Evaluated.explains_overall {a : Analysis} (h : a.Evaluated)
    (finite : a.evaluation.overall.result.unbounded = false)
    (called : a.evaluation.overall.result.path ≠ []) :
    Explains (Report.worstOf a).frames a.evaluation.overall.result := by
  have frames : (Report.worstOf a).frames =
      breakdown a.table.frameSize a.evaluation.overall.result.path := by
    simp [Report.worstOf, finite]
  rw [frames]
  rw [h.eq_of] at finite called ⊢
  rcases Evaluation.result_overall_cases a.graph a.table.frameSize a.scenarios a.entryPoints with
    none | ⟨s, -, entry, -, answer⟩
  · exact absurd (congrArg WorstCase.path none) called
  · rw [answer] at finite ⊢
    exact Program.explains_worst (p := s.program a.graph a.table.frameSize) finite

namespace Analyzer

theorem callees_sampleGraph (sizes : Name → Int64) :
    (Program.ofGraph sampleGraph .empty sizes).callees (utf8 "f") = [utf8 "g"] ∧
      (Program.ofGraph sampleGraph .empty sizes).callees (utf8 "g") = [] := by
  have listed := (Graph.ordered_ofEdges [⟨utf8 "f", utf8 "g"⟩]).callees
  simp only [Program.callees_ofGraph_empty, sampleGraph, listed]
  decide

theorem worst_sampleGraph {sizes : Name → Int64} (positive : 0 < sizes (utf8 "g")) :
    (Program.ofGraph sampleGraph .empty sizes).worst [] (utf8 "f") =
      ⟨sizes (utf8 "f") + sizes (utf8 "g"), false, [utf8 "f", utf8 "g"], []⟩ := by
  obtain ⟨first, second⟩ := callees_sampleGraph sizes
  have new : utf8 "g" ∉ [] ++ [utf8 "f"] := by decide
  rw [Program.worst_of_not_mem List.not_mem_nil, Program.worstCallee, first, List.map_singleton,
    Program.worst_of_leaf new second]
  simp [WorstCase.max, WorstCase.greater, WorstCase.extend, WorstCase.zero, Program.ofGraph, positive]

theorem overall_sample {a : Analysis} (found : Run.Session.SampleFound a) (evaluated : a.Evaluated) :
    a.evaluation.overall.result = ⟨8, false, [utf8 "main"], []⟩ := by
  have entries : Bytes.sortedSet [utf8 "main"] = [utf8 "main"] := by decide +kernel
  have leaf : (Scenario.base.program a.graph a.table.frameSize).callees (utf8 "main") = [] := by
    rw [found.graph]
    refine (Program.callees_ofGraph_empty _ _ _).trans ?_
    rw [(Graph.ordered_ofEdges []).callees]
    rfl
  have alone := Program.worst_of_leaf List.not_mem_nil leaf
  rw [show (Scenario.base.program a.graph a.table.frameSize).frameSize (utf8 "main") = 8 from
    found.frameSize] at alone
  rw [evaluated.eq_of, Evaluation.result_overall, found.scenarios, found.entryPoints,
    List.map_singleton, Scenario.result_evaluate, entries, List.map_singleton, alone]
  decide

/-- The breakdown of the path of a finite answer explains this answer: it is not empty, lists the
functions of the path, and ends in the total. Sums may wrap, and nothing is assumed of the sizes. So the
frames in the report of any finished run end in the total reported with them, where the overall result
is finite and names a function. -/
theorem breakdown_explains (g : Graph) (overlay : Overlay) (sizes : Name → Int64)
    (history : List Name) (start : Name) :
    let answer := ((after (.ofGraph g overlay sizes) history).worstCase
      (.ofGraph g overlay sizes) start).1
    (answer.unbounded = false → Explains (breakdown sizes answer.path) answer) ∧
    ∀ {σ : Type} (c : Run.Caching σ) (tree : Tree) (canceled : Bool) (o : Options) (t : Run.Trace σ)
      (a : Analysis), (Run.execute c tree canceled o t).1 = .ok a → ∀ runId version,
      let overall := a.evaluation.overall.result
      let worst := (Report.ofAnalysis runId version a).worst
      overall.unbounded = false → overall.path ≠ [] →
        Explains worst.frames overall ∧
          worst.frames.getLast?.map (·.cumulative) = some worst.total := by
  intro answer
  constructor
  · intro finite
    have recursion : answer = (Program.ofGraph g overlay sizes).worst [] start :=
      worstCase_after _ history start
    rw [recursion] at finite ⊢
    exact Program.explains_worst finite
  · intro σ c tree canceled o t a done runId version overall worst finite called
    have explains := (Run.evaluated_of_execute done).explains_overall finite called
    exact ⟨explains, explains.total⟩

/-- A sum that leaves the range of 64 bits is told by the frames as by the answer, and a run that ends
reports frames that end in its total. -/
theorem breakdown_explains_sample :
    let table := sampleTable 9223372036854775807
    let answer := ((after (.ofGraph sampleGraph .empty table.frameSize) [utf8 "g"]).worstCase
      (.ofGraph sampleGraph .empty table.frameSize) (utf8 "f")).1
    (answer.unbounded = false ∧ Explains (breakdown table.frameSize answer.path) answer ∧
      answer.total = -9223372036854775808) ∧
    ∃ a, (Run.execute ⟨.null, [], 0⟩ Run.Session.sampleTree false Run.Session.sample.options
        (.start ())).1 = .ok a ∧
      a.evaluation.overall.result = ⟨8, false, [utf8 "main"], []⟩ ∧
      Explains (Report.ofAnalysis [] [] a).worst.frames a.evaluation.overall.result := by
  intro table answer
  constructor
  · have nonneg : (0 : Int64) ≤ 9223372036854775807 := by decide
    obtain ⟨first, second⟩ := frameSize_sampleTable nonneg
    have whole : answer = ⟨table.frameSize (utf8 "f") + table.frameSize (utf8 "g"), false,
        [utf8 "f", utf8 "g"], []⟩ := by
      rw [show answer = _ from worstCase_after _ _ _]
      exact worst_sampleGraph (by rw [second]; decide)
    have finite : answer.unbounded = false := congrArg WorstCase.unbounded whole
    refine ⟨finite, ?_, ?_⟩
    · exact (breakdown_explains sampleGraph .empty table.frameSize [utf8 "g"] (utf8 "f")).1 finite
    · rw [whole, first, second]
      decide
  · obtain ⟨a, ends, found⟩ := Run.Session.direct_sample_found
    have done := (Run.Session.alone_eq Run.Session.sample).trans ends
    have overall := overall_sample found (Run.evaluated_of_execute done)
    have report := (breakdown_explains sampleGraph .empty table.frameSize [] (utf8 "f")).2 _ _ _ _ _ a
      done [] []
    refine ⟨a, done, overall, (report ?_ ?_).1⟩
    · rw [overall]
    · rw [overall]
      exact List.cons_ne_nil _ _

end Analyzer
end StackBound
