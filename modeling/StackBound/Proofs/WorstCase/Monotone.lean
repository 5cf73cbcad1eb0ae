import StackBound.Proofs.CallGraph.Resolution
import StackBound.Proofs.WorstCase.Bound

/-! More calls and larger frames never give a smaller answer. The two searches may meet the functions
in different orders, remember different answers and run into different cycles, so they are compared
through what their answers say about all call paths. -/
namespace StackBound

open CallGraph (Edge Gathered Graph Overlay)

/-! ### Paths of a larger call relation -/

variable {calls calls' : Name → Name → Prop} {start : Name} {path : List Name}

theorem CallPath.mono (h : CallPath calls start path)
    (more : ∀ fn callee, calls fn callee → calls' fn callee) : CallPath calls' start path :=
  ⟨h.head, h.chain.imp more⟩

theorem ReachesCycle.mono (h : ReachesCycle calls start)
    (more : ∀ fn callee, calls fn callee → calls' fn callee) : ReachesCycle calls' start := by
  obtain ⟨fn, reached, cycle⟩ := h
  exact ⟨fn, Relation.ReflTransGen.mono more _ _ reached, Relation.TransGen.mono more _ _ cycle⟩

theorem stackUse_le_stackUse {sizes sizes' : Name → Int64} (larger : ∀ fn, sizes fn ≤ sizes' fn)
    (path : List Name) : stackUse sizes path ≤ stackUse sizes' path := by
  induction path with
  | nil => simp
  | cons fn rest ih =>
    rw [stackUse_cons, stackUse_cons]
    exact add_le_add (Int64.le_iff_toInt_le.mp (larger fn)) ih

/-! ### Answers -/

/-- A program with more calls and larger frames has an answer at least as bad, if its sums fit. -/
theorem Program.level_worst_mono {p p' : Program}
    (more : ∀ fn callee, p.Calls fn callee → p'.Calls fn callee)
    (nonneg : ∀ fn, 0 ≤ p.frameSize fn) (larger : ∀ fn, p.frameSize fn ≤ p'.frameSize fn)
    (fits : ∀ path, CallPath p'.Calls start path → path.Nodup → stackUse p'.frameSize path < 2 ^ 63) :
    (p.worst [] start).level ≤ (p'.worst [] start).level := by
  cases unbounded : (p'.worst [] start).unbounded with
  | true => exact (WorstCase.level_eq_top.mpr unbounded) ▸ le_top
  | false =>
    have nonneg' (fn : Name) : 0 ≤ p'.frameSize fn := Int64.le_trans (nonneg fn) (larger fn)
    have within := WorstCase.level_of_finite unbounded
    obtain ⟨acyclic, most⟩ := (level_worst_le (fun fn => Int64.le_iff_toInt_le.mp (nonneg' fn)) fits
      (p'.worst [] start).total.toInt).mp within.le
    rw [within]
    refine (level_worst_le (fun fn => Int64.le_iff_toInt_le.mp (nonneg fn)) (fun path h simple => ?_)
      _).mpr ⟨fun cyclic => acyclic (cyclic.mono more), fun path h => ?_⟩
    · exact (stackUse_le_stackUse larger path).trans_lt (fits path (h.mono more) simple)
    · exact (stackUse_le_stackUse larger path).trans (most path (h.mono more))

/-! ### Ways to add calls -/

/-- What can be done to a graph and the calls assumed beside it that only adds calls: assume one
more, add one to the graph, or build the graph with fewer calls ignored. -/
inductive Grows : Graph → Overlay → Graph → Overlay → Prop
  | assumed (g : Graph) (overlay : Overlay) (caller callee : Name) :
      Grows g overlay g (overlay.add caller callee)
  | called (g : Graph) (overlay : Overlay) (caller callee : Name) :
      Grows g overlay (g.addEdge caller callee).1 overlay
  | heeded (gathered : Gathered) (overlay : Overlay) {pairs kept : List Edge} (fewer : kept ⊆ pairs) :
      Grows (gathered.build (Annotations.ofList pairs).has).graph overlay
        (gathered.build (Annotations.ofList kept).has).graph overlay

theorem Grows.more {g g' : Graph} {overlay overlay' : Overlay} (grows : Grows g overlay g' overlay')
    (fn callee : Name) (call : overlay.Calls g fn callee) : overlay'.Calls g' fn callee := by
  cases grows with
  | assumed =>
    exact call.imp_right fun known => (Overlay.mem_own_add ..).mpr (.inl known)
  | called _ _ caller target =>
    exact call.imp_left fun known => (Graph.hasEdge_add g ⟨caller, target⟩ fn callee).mpr (.inl known)
  | heeded _ _ fewer =>
    refine call.imp_left fun known => ?_
    simp only [Gathered.build, Graph.hasEdge_ofEdges, List.mem_filter, Bool.not_eq_true',
      Bool.eq_false_iff, Ne, Annotations.has_ofList] at known ⊢
    obtain ⟨⟨resolved, heeded⟩, named⟩ := known
    refine ⟨⟨resolved, ?_⟩, named⟩
    rintro ⟨pair, member, same⟩
    exact heeded ⟨pair, fewer member, same⟩

namespace Analyzer

/-- Where all sums of the second model fit and its frames are at least as large, more calls never give
an answer below the first one's. So assuming a call, adding one or ignoring fewer neither lowers a
total nor makes an unbounded answer finite. What was searched before does not matter. -/
theorem worstCase_mono (g g' : Graph) (overlay overlay' : Overlay) (sizes sizes' : Name → Int64)
    (history history' : List Name) (start : Name)
    (larger : ∀ fn, 0 ≤ sizes fn ∧ sizes fn ≤ sizes' fn)
    (fits : ∀ path, CallPath (overlay'.Calls g') start path → path.Nodup →
      stackUse sizes' path < 2 ^ 63) :
    let answer := ((after (.ofGraph g overlay sizes) history).worstCase
      (.ofGraph g overlay sizes) start).1
    let answer' := ((after (.ofGraph g' overlay' sizes') history').worstCase
      (.ofGraph g' overlay' sizes') start).1
    ((∀ fn callee, overlay.Calls g fn callee → overlay'.Calls g' fn callee) →
      answer.greater answer' = false) ∧
    (Grows g overlay g' overlay' →
      (answer.unbounded = true → answer'.unbounded = true) ∧
      (answer'.unbounded = false → answer.total ≤ answer'.total)) := by
  intro answer answer'
  have level (more : ∀ fn callee, overlay.Calls g fn callee → overlay'.Calls g' fn callee) :
      answer.level ≤ answer'.level := by
    simp only [answer, answer', worstCase_after]
    rw [← Program.calls_ofGraph g overlay sizes, ← Program.calls_ofGraph g' overlay' sizes'] at more
    rw [← Program.calls_ofGraph g' overlay' sizes'] at fits
    exact Program.level_worst_mono more (fun fn => (larger fn).1) (fun fn => (larger fn).2) fits
  refine ⟨fun more => ?_, fun grows => ⟨fun unbounded => ?_, fun finite => ?_⟩⟩
  · exact Bool.eq_false_iff.mpr fun worse => (WorstCase.greater_iff.mp worse).not_ge (level more)
  · have least := level grows.more
    rw [WorstCase.level_eq_top.mpr unbounded, top_le_iff] at least
    exact WorstCase.level_eq_top.mp least
  · have most := (level grows.more).trans (WorstCase.level_of_finite finite).le
    exact Int64.le_iff_toInt_le.mpr (WorstCase.level_le_coe.mp most).2

/-- A callback that is assumed beside a call, in a build with a larger frame. -/
theorem worstCase_mono_callback :
    let g := Graph.ofEdges [⟨[1], [2]⟩]
    let overlay := Overlay.empty.add [2] [3]
    let sizes : Name → Int64 := fun fn => if fn = [1] then 16 else 8
    let sizes' : Name → Int64 := fun fn => if fn = [1] then 24 else 8
    let answer := ((after (.ofGraph g .empty sizes) [[2]]).worstCase (.ofGraph g .empty sizes) [1]).1
    let answer' := ((after (.ofGraph g overlay sizes') []).worstCase (.ofGraph g overlay sizes') [1]).1
    (∀ fn, 0 ≤ sizes fn ∧ sizes fn ≤ sizes' fn) ∧
      (∀ path, CallPath (overlay.Calls g) [1] path → path.Nodup → stackUse sizes' path < 2 ^ 63) ∧
      Grows g .empty g overlay ∧ answer.greater answer' = false ∧
      (answer'.unbounded = false → answer.total ≤ answer'.total) := by
  intro g overlay sizes sizes' answer answer'
  have larger (fn : Name) : 0 ≤ sizes fn ∧ sizes fn ≤ sizes' fn := by
    simp only [sizes, sizes']
    split <;> decide
  have calls {fn callee : Name} (call : overlay.Calls g fn callee) :
      fn = [1] ∧ callee = [2] ∨ fn = [2] ∧ callee = [3] := by
    rw [Overlay.Calls, Graph.hasEdge_ofEdges, Overlay.mem_own_add, Overlay.own_empty] at call
    rcases call with ⟨member, -⟩ | known | ⟨rfl, rfl⟩
    · exact .inl (by simpa using member)
    · cases known
    · exact .inr ⟨rfl, rfl⟩
  have fits (path : List Name) (h : CallPath (overlay.Calls g) [1] path) (_ : path.Nodup) :
      stackUse sizes' path < 2 ^ 63 := by
    rcases h.eq_or_cons with rfl | ⟨callee, rest, call, rfl, onward⟩
    · decide
    obtain rfl : callee = [2] := by simpa using calls call
    rcases onward.eq_or_cons with rfl | ⟨callee, rest, call, rfl, onward⟩
    · decide
    obtain rfl : callee = [3] := by simpa using calls call
    rcases onward.eq_or_cons with rfl | ⟨callee, rest, call, rfl, onward⟩
    · decide
    · simpa using calls call
  have grows : Grows g .empty g overlay := .assumed g .empty [2] [3]
  obtain ⟨never, kept⟩ := worstCase_mono g g .empty overlay sizes sizes' [[2]] [] [1] larger fits
  exact ⟨larger, fits, grows, never grows.more, (kept grows).2⟩

end Analyzer
end StackBound
