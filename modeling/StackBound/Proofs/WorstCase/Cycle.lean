import StackBound.Proofs.WorstCase.Bound

/-! What an unbounded answer shows. The functions being explored and the path of the answer make one
path without repetition; a call from its last function leads back onto it, and the cycle of the answer
is the path from there on. -/
namespace StackBound

open CallGraph (Graph Overlay)

/-- Calls from a function back to itself that pass no function twice on the way. -/
structure SimpleCycle (calls : Name → Name → Prop) (cycle : List Name) : Prop where
  chain : cycle.IsChain calls
  returns : cycle.head? = cycle.getLast?
  once : cycle.dropLast.Nodup
  proper : 2 ≤ cycle.length

/-- A call from the last function of a path leads back onto the path, and the cycle is what the path
does from there on. -/
def ClosesOn (calls : Name → Name → Prop) (path cycle : List Name) : Prop :=
  ∃ (i : Nat) (back last : Name), path[i]? = some back ∧ path.getLast? = some last ∧
    calls last back ∧ cycle = path.drop i ++ [back]

namespace ClosesOn

variable {calls : Name → Name → Prop} {path active cycle : List Name} {fn : Name}

theorem simpleCycle (h : ClosesOn calls path cycle) (chain : path.IsChain calls)
    (nodup : path.Nodup) : SimpleCycle calls cycle := by
  obtain ⟨i, back, last, found, ends, call, rfl⟩ := h
  obtain ⟨inside, rfl⟩ := List.getElem?_eq_some_iff.mp found
  refine ⟨List.isChain_append.mpr ⟨chain.drop i, .singleton _, ?_⟩, ?_, ?_, ?_⟩
  · intro x atEnd y first
    rw [List.getLast?_drop, if_neg (by omega), ends] at atEnd
    obtain rfl := Option.some.inj atEnd
    obtain rfl : path[i] = y := by simpa using first
    exact call
  · simp [found]
  · rw [List.dropLast_concat]
    exact nodup.sublist (List.drop_sublist i path)
  · rw [List.length_append, List.length_drop, List.length_singleton]
    omega

/-- A path that would go on to a function it has passed closes there. -/
theorem of_mem (chain : (active ++ [fn]).IsChain calls) (nodup : active.Nodup)
    (member : fn ∈ active) : ClosesOn calls active (active.dropWhile (· ≠ fn) ++ [fn]) := by
  obtain ⟨before, after, rfl⟩ := List.append_of_mem member
  have apart : ∀ g ∈ before, decide (g ≠ fn) = true := by
    intro g inside
    simpa using (List.nodup_append.mp nodup).2.2 g inside fn (by simp)
  have rest : (before ++ fn :: after).dropWhile (· ≠ fn) = fn :: after := by
    rw [List.dropWhile_append_of_pos apart, List.dropWhile_cons_of_neg (by simp)]
  obtain ⟨last, ends⟩ : ∃ last, (before ++ fn :: after).getLast? = some last :=
    ⟨_, List.getLast?_eq_some_getLast (by simp)⟩
  refine ⟨before.length, fn, last, by simp, ends, ?_, ?_⟩
  · exact (List.isChain_append.mp chain).2.2 last ends fn rfl
  · rw [rest, List.drop_left]

end ClosesOn

namespace Program

variable {p : Program} {active : List Name} {fn : Name}

/-- An unbounded answer takes the functions being explored on to a path that closes. -/
theorem closesOn_worst (chain : (active ++ [fn]).IsChain p.Calls) (nodup : active.Nodup)
    (unbounded : (p.worst active fn).unbounded = true) :
    (p.worst active fn).total = 0 ∧
      (active ++ (p.worst active fn).path).IsChain p.Calls ∧
      (active ++ (p.worst active fn).path).Nodup ∧
      ClosesOn p.Calls (active ++ (p.worst active fn).path) (p.worst active fn).cycle := by
  induction active, fn using worst.induct p with
  | case1 active fn member =>
    rw [worst_of_mem member, WorstCase.recursion, List.append_nil]
    exact ⟨rfl, chain.left_of_append, nodup, .of_mem chain nodup member⟩
  | case2 active fn new ih =>
    rw [worst_of_not_mem new] at unbounded ⊢
    rw [WorstCase.unbounded_extend] at unbounded
    rcases p.worstCallee_cases active fn with harmless | ⟨callee, call, same⟩
    · simp [harmless, WorstCase.zero] at unbounded
    rw [← same] at unbounded ⊢
    have longer : (active ++ [fn]).Nodup := by
      simpa [List.nodup_append] using ⟨nodup, fun g inside => ne_of_mem_of_not_mem inside new⟩
    have onward := ih ⟨callee, call⟩ (isChain_snoc chain call) longer unbounded
    simp only [List.append_assoc, List.singleton_append] at onward
    rw [WorstCase.extend, if_pos unbounded]
    exact ⟨rfl, onward.2⟩

theorem callPath_of_unbounded (unbounded : (p.worst [] fn).unbounded = true) :
    CallPath p.Calls fn (p.worst [] fn).path := by
  refine ⟨?_, (closesOn_worst (.singleton fn) List.nodup_nil unbounded).2.1⟩
  rw [worst_of_not_mem List.not_mem_nil, WorstCase.path_extend, List.head?_cons]

end Program

namespace Analyzer

/-- Every unbounded answer carries the recursion it reports, whatever was searched before. Its path is
a call path from the start without repetition, a call from the last function of the path leads back
onto it, and the cycle, which is the path from there on, is a simple one. -/
theorem closesOn_of_unbounded (g : Graph) (overlay : Overlay) (sizes : Name → Int64)
    (history : List Name) (start : Name) :
    let answer := ((after (.ofGraph g overlay sizes) history).worstCase
      (.ofGraph g overlay sizes) start).1
    answer.unbounded = true →
      answer.total = 0 ∧ CallPath (overlay.Calls g) start answer.path ∧ answer.path.Nodup ∧
        ClosesOn (overlay.Calls g) answer.path answer.cycle ∧
        SimpleCycle (overlay.Calls g) answer.cycle := by
  intro answer unbounded
  have recursion : answer = (Program.ofGraph g overlay sizes).worst [] start :=
    worstCase_after _ history start
  rw [recursion] at unbounded ⊢
  rw [← Program.calls_ofGraph g overlay sizes]
  obtain ⟨total, chain, nodup, closes⟩ :=
    Program.closesOn_worst (.singleton start) List.nodup_nil unbounded
  exact ⟨total, Program.callPath_of_unbounded unbounded, nodup, closes,
    closes.simpleCycle chain nodup⟩

/-- A callback that calls itself, which the start only leads to. -/
theorem closesOn_of_unbounded_callback :
    let g := Graph.ofEdges [⟨[1], [2]⟩]
    let overlay := Overlay.ofEdges [⟨[2], [2]⟩]
    let answer := ((after (.ofGraph g overlay fun _ => 8) [[2]]).worstCase
      (.ofGraph g overlay fun _ => 8) [1]).1
    answer.unbounded = true ∧ answer.path = [[1], [2]] ∧ answer.cycle = [[2], [2]] := by
  intro g overlay answer
  have calls {fn callee : Name} (call : overlay.Calls g fn callee) :
      callee = [2] ∧ (fn = [1] ∨ fn = [2]) := by
    rcases (Overlay.calls_ofEdges _ _ _ _).mp call with ⟨member, -⟩ | member
    · obtain ⟨rfl, rfl⟩ : fn = [1] ∧ callee = [2] := by simpa using member
      exact ⟨rfl, .inl rfl⟩
    · obtain ⟨rfl, rfl⟩ : fn = [2] ∧ callee = [2] := by simpa using member
      exact ⟨rfl, .inr rfl⟩
  have there : overlay.Calls g [1] [2] := (Overlay.calls_ofEdges _ _ _ _).mpr (by simp)
  have again : overlay.Calls g [2] [2] := (Overlay.calls_ofEdges _ _ _ _).mpr (by simp)
  have unbounded : answer.unbounded = true := by
    show ((after _ _).worstCase _ _).1.unbounded = true
    rw [worstCase_after, Program.unbounded_worst_iff, Program.calls_ofGraph]
    exact ⟨[2], .single there, .single again⟩
  obtain ⟨-, path, nodup, closes, -⟩ : answer.total = 0 ∧
      CallPath (overlay.Calls g) [1] answer.path ∧ answer.path.Nodup ∧
      ClosesOn (overlay.Calls g) answer.path answer.cycle ∧ _ :=
    closesOn_of_unbounded g overlay (fun _ => 8) [[2]] [1] unbounded
  obtain ⟨i, back, last, found, -, call, cycle⟩ := closes
  obtain rfl := (calls call).1
  have whole : answer.path = [[1], [2]] := by
    rcases path.eq_or_cons with short | ⟨callee, rest, call, longer, onward⟩
    · -- The start alone is never called back.
      rw [short] at found
      simpa using List.mem_of_getElem? found
    · obtain rfl := (calls call).1
      rcases onward.eq_or_cons with rfl | ⟨callee, rest, call, rfl, onward⟩
      · exact longer
      · obtain rfl := (calls call).1
        have twice : [2] ∈ rest := List.mem_of_mem_head? onward.head
        simp [longer, twice] at nodup
  rw [whole] at found cycle
  refine ⟨unbounded, whole, ?_⟩
  rcases i with _ | _ | i
  · simp at found
  · exact cycle
  · simp at found

end Analyzer
end StackBound
