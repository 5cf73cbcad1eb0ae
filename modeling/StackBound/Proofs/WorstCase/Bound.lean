import StackBound.Proofs.CallGraph.Edges
import StackBound.Proofs.WorstCase.Agreement

/-! What the answer of a search says about the program. It is unbounded exactly if a cycle is within
reach. If none is and no sum of frames overflows, the total is the greatest stack use of any call
path, and the path of the answer is one that takes it. -/
namespace StackBound

open CallGraph (Graph Overlay)

theorem toInt_add_of_fits {a b : Int64} (nonneg : 0 ≤ a.toInt + b.toInt)
    (fits : a.toInt + b.toInt < 2 ^ 63) : (a + b).toInt = a.toInt + b.toInt := by
  rw [Int64.toInt_add]
  apply Int.bmod_eq_of_le <;> omega

/-- The path of an answer takes its total, and no path from the same function takes more. -/
structure Deepest (calls : Name → Name → Prop) (sizes : Name → Int64) (start : Name)
    (answer : WorstCase) : Prop where
  path : CallPath calls start answer.path
  use : stackUse sizes answer.path = answer.total.toInt
  greatest : ∀ path, CallPath calls start path → stackUse sizes path ≤ answer.total.toInt

namespace Program

variable {p : Program} {active : List Name} {fn callee : Name}

def Fits (p : Program) (fn : Name) : Prop :=
  ∀ path, CallPath p.Calls fn path → stackUse p.frameSize path < 2 ^ 63

theorem Fits.of_call (fits : p.Fits fn) (nonneg : ∀ fn, 0 ≤ (p.frameSize fn).toInt)
    (call : p.Calls fn callee) : p.Fits callee := by
  intro path onward
  have whole := fits (fn :: path) (onward.cons call)
  rw [stackUse_cons] at whole
  have := nonneg fn
  omega

/-- The worst callee's path can be put behind the function, if there is one. -/
theorem path_worstCallee (deepest : ∀ callee, p.Calls fn callee →
      Deepest p.Calls p.frameSize callee (p.worst (active ++ [fn]) callee)) :
    CallPath p.Calls fn (fn :: (p.worstCallee active fn).path) ∧
      stackUse p.frameSize (p.worstCallee active fn).path =
        (p.worstCallee active fn).total.toInt := by
  rcases p.worstCallee_cases active fn with harmless | ⟨callee, call, same⟩
  · rw [harmless]
    exact ⟨.single, rfl⟩
  · rw [← same]
    exact ⟨(deepest callee call).path.cons call, (deepest callee call).use⟩

/-- The worst callee's total is at least zero and no less than that of any callee. -/
theorem le_worstCallee (finite : (p.worstCallee active fn).unbounded = false) :
    0 ≤ (p.worstCallee active fn).total.toInt ∧ ∀ callee, p.Calls fn callee →
      (p.worst (active ++ [fn]) callee).unbounded = false ∧
      (p.worst (active ++ [fn]) callee).total.toInt ≤ (p.worstCallee active fn).total.toInt := by
  have level := WorstCase.level_of_finite finite
  obtain ⟨least, others⟩ := (WorstCase.level_foldl_max_le
    ((p.callees fn).map (p.worst (active ++ [fn]))) .zero).mp level.le
  refine ⟨(WorstCase.level_le_coe.mp least).2, fun callee call => ?_⟩
  exact WorstCase.level_le_coe.mp (others _ (List.mem_map_of_mem call))

/-- A finite answer that nowhere overflows gives a deepest path. -/
theorem deepest_worst (nonneg : ∀ fn, 0 ≤ (p.frameSize fn).toInt) (fits : p.Fits fn)
    (finite : (p.worst active fn).unbounded = false) :
    Deepest p.Calls p.frameSize fn (p.worst active fn) := by
  induction active, fn using worst.induct p with
  | case1 active fn member => simp [worst_of_mem member, WorstCase.recursion] at finite
  | case2 active fn new ih =>
    rw [worst_of_not_mem new] at finite ⊢
    rw [WorstCase.unbounded_extend] at finite
    obtain ⟨least, others⟩ := le_worstCallee finite
    have deepest : ∀ callee, p.Calls fn callee →
        Deepest p.Calls p.frameSize callee (p.worst (active ++ [fn]) callee) := fun callee call =>
      ih ⟨callee, call⟩ (fits.of_call nonneg call) (others callee call).1
    obtain ⟨path, use⟩ := path_worstCallee deepest
    -- The path behind the total is a call path itself, so the total does not wrap.
    have bound := fits _ path
    rw [stackUse_cons, use] at bound
    have own := nonneg fn
    have total : (p.frameSize fn + (p.worstCallee active fn).total).toInt =
        (p.frameSize fn).toInt + (p.worstCallee active fn).total.toInt :=
      toInt_add_of_fits (by omega) bound
    rw [WorstCase.extend_of_finite finite]
    refine ⟨path, by rw [stackUse_cons, use, total], fun other h => ?_⟩
    rw [total]
    rcases h.eq_or_cons with rfl | ⟨callee, rest, call, rfl, onward⟩
    · rw [stackUse_cons, stackUse_nil]
      omega
    · have below := (deepest callee call).greatest rest onward
      have worst := (others callee call).2
      rw [stackUse_cons]
      omega

/-- What the answer of the recursion says about a bound: a cycle breaks every bound, and without one
each call path has to keep to it. Only paths without repetition need to fit, for without a cycle
there are no others. -/
theorem level_worst_le (nonneg : ∀ fn, 0 ≤ (p.frameSize fn).toInt)
    (fits : ∀ path, CallPath p.Calls fn path → path.Nodup → stackUse p.frameSize path < 2 ^ 63)
    (bound : Int) :
    (p.worst [] fn).level ≤ (bound : WithTop Int) ↔ ¬ ReachesCycle p.Calls fn ∧
      ∀ path, CallPath p.Calls fn path → stackUse p.frameSize path ≤ bound := by
  rw [WorstCase.level_le_coe, ← Bool.not_eq_true, unbounded_worst_iff]
  refine and_congr_right fun acyclic => ?_
  have deepest := deepest_worst nonneg (fun path h => fits path h (h.nodup acyclic))
    (finite_worst acyclic)
  constructor
  · intro within path h
    exact (deepest.greatest path h).trans within
  · intro within
    rw [← deepest.use]
    exact within _ deepest.path

theorem calls_ofGraph (g : Graph) (overlay : Overlay) (sizes : Name → Int64) :
    (Program.ofGraph g overlay sizes).Calls = overlay.Calls g := by
  funext fn callee
  exact propext Overlay.mem_callees_iff

end Program

namespace Analyzer

/-- Recursion is reported exactly when it exists: the answer is unbounded if and only if a function
that leads back to itself, over the calls of the graph and the assumed ones, is reached from the
start. -/
theorem unbounded_iff_reachesCycle (g : Graph) (overlay : Overlay) (sizes : Name → Int64)
    (history : List Name) (start : Name) :
    ((after (.ofGraph g overlay sizes) history).worstCase
        (.ofGraph g overlay sizes) start).1.unbounded = true ↔
      ReachesCycle (overlay.Calls g) start := by
  rw [worstCase_after, Program.unbounded_worst_iff, Program.calls_ofGraph]

/-- Where no cycle is within reach and no path overflows, the answer is finite and exact: its total
is the greatest stack use of any call path from the start, and its path is a call path without
repetition that takes it. -/
theorem worstCase_isGreatest (g : Graph) (overlay : Overlay) (sizes : Name → Int64)
    (history : List Name) (start : Name) (nonneg : ∀ fn, 0 ≤ sizes fn)
    (acyclic : ¬ ReachesCycle (overlay.Calls g) start)
    (fits : ∀ path, CallPath (overlay.Calls g) start path → stackUse sizes path < 2 ^ 63) :
    let answer := ((after (.ofGraph g overlay sizes) history).worstCase
      (.ofGraph g overlay sizes) start).1
    answer.unbounded = false ∧
      IsGreatest {bytes | ∃ path, CallPath (overlay.Calls g) start path ∧
        stackUse sizes path = bytes} answer.total.toInt ∧
      CallPath (overlay.Calls g) start answer.path ∧ answer.path.Nodup ∧
      stackUse sizes answer.path = answer.total.toInt := by
  intro answer
  have recursion : answer = (Program.ofGraph g overlay sizes).worst [] start :=
    worstCase_after _ history start
  have calls := Program.calls_ofGraph g overlay sizes
  have finite : answer.unbounded = false := by
    rw [recursion]
    exact Program.finite_worst (by rwa [calls])
  have deepest : Deepest (overlay.Calls g) sizes start answer := by
    rw [recursion] at finite ⊢
    rw [← calls] at fits ⊢
    exact Program.deepest_worst (fun fn => Int64.le_iff_toInt_le.mp (nonneg fn)) fits finite
  refine ⟨finite, ⟨⟨answer.path, deepest.path, deepest.use⟩, ?_⟩, deepest.path,
    deepest.path.nodup acyclic, deepest.use⟩
  rintro bytes ⟨path, isPath, rfl⟩
  exact deepest.greatest path isPath

/-- Two ways to a function that was searched before, the deeper one over an assumed call. -/
theorem worstCase_isGreatest_shared :
    let g := Graph.ofEdges [⟨[1], [2]⟩, ⟨[1], [3]⟩]
    let overlay := Overlay.ofEdges [⟨[2], [3]⟩]
    let sizes : Name → Int64 := fun fn => if fn = [1] then 16 else 8
    (∀ fn, 0 ≤ sizes fn) ∧ ¬ ReachesCycle (overlay.Calls g) [1] ∧
      (∀ path, CallPath (overlay.Calls g) [1] path → stackUse sizes path < 2 ^ 63) ∧
      ((after (.ofGraph g overlay sizes) [[3]]).worstCase
        (.ofGraph g overlay sizes) [1]).1.total.toInt = 32 := by
  intro g overlay sizes
  have calls {fn callee : Name} (call : overlay.Calls g fn callee) :
      fn = [1] ∧ (callee = [2] ∨ callee = [3]) ∨ fn = [2] ∧ callee = [3] := by
    rcases (Overlay.calls_ofEdges _ _ _ _).mp call with ⟨member, -⟩ | member
    · exact .inl (by simpa [and_or_left] using member)
    · exact .inr (by simpa using member)
  have nonneg (fn : Name) : 0 ≤ sizes fn := by
    simp only [sizes]
    split <;> decide
  have fromThird {path : List Name} (h : CallPath (overlay.Calls g) [3] path) : path = [[3]] := by
    rcases h.eq_or_cons with rfl | ⟨callee, rest, call, rfl, onward⟩
    · rfl
    · simpa using calls call
  have fromSecond {path : List Name} (h : CallPath (overlay.Calls g) [2] path) :
      path = [[2]] ∨ path = [[2], [3]] := by
    rcases h.eq_or_cons with rfl | ⟨callee, rest, call, rfl, onward⟩
    · exact .inl rfl
    · obtain rfl : callee = [3] := by simpa using calls call
      simp [fromThird onward]
  have most {path : List Name} (h : CallPath (overlay.Calls g) [1] path) :
      stackUse sizes path ≤ 32 := by
    rcases h.eq_or_cons with rfl | ⟨callee, rest, call, rfl, onward⟩
    · decide
    · obtain rfl | rfl : callee = [2] ∨ callee = [3] := by simpa using calls call
      · rcases fromSecond onward with rfl | rfl <;> decide
      · obtain rfl := fromThird onward
        decide
  have acyclic : ¬ ReachesCycle (overlay.Calls g) [1] := by
    refine ReachesCycle.not_of_rank (fun fn => (fn.map UInt8.toNat).sum) (fun call => ?_) [1]
    rcases calls call with ⟨rfl, rfl | rfl⟩ | ⟨rfl, rfl⟩ <;> decide
  have fits (path : List Name) (h : CallPath (overlay.Calls g) [1] path) :
      stackUse sizes path < 2 ^ 63 := by
    have := most h
    omega
  have long : CallPath (overlay.Calls g) [1] [[1], [2], [3]] :=
    .cons ((Overlay.calls_ofEdges _ _ _ _).mpr (by simp))
      (.cons ((Overlay.calls_ofEdges _ _ _ _).mpr (by simp)) .single)
  obtain ⟨-, greatest, -⟩ := worstCase_isGreatest g overlay sizes [[3]] [1] nonneg acyclic fits
  obtain ⟨path, isPath, use⟩ := greatest.1
  refine ⟨nonneg, acyclic, fits, le_antisymm (use ▸ most isPath) ?_⟩
  exact greatest.2 ⟨_, long, by decide⟩

end Analyzer
end StackBound
