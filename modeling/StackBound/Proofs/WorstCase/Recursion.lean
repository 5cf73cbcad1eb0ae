import StackBound.WorstCase.Program
import StackBound.Proofs.CallPath
import StackBound.Proofs.WorstCase.Order

/-! The worst case by plain recursion, without a memo or a stack of frames: what the search is
measured against. The functions being explored are an argument, the first called first; a function
met again among them is recursion. The answer is unbounded exactly if a cycle is within reach, and
where none is, the functions being explored do not matter. -/
namespace StackBound

open Relation (ReflTransGen TransGen)

namespace Program

def Calls (p : Program) (fn callee : Name) : Prop := callee ∈ p.callees fn

/-- The functions that exploring a function can still add to those being explored. -/
def unexplored (p : Program) (active : List Name) (fn : Name) : Finset Name :=
  insert fn p.names.toFinset \ active.toFinset

theorem card_unexplored_lt {p : Program} {active : List Name} {fn callee : Name} (new : fn ∉ active)
    (call : p.Calls fn callee) :
    (p.unexplored (active ++ [fn]) callee).card < (p.unexplored active fn).card := by
  have named : callee ∈ p.names := p.callees_mem call
  apply Finset.card_lt_card
  refine Finset.ssubset_iff_subset_ne.mpr ⟨fun g => ?_, fun same => ?_⟩
  · simp only [unexplored, Finset.mem_sdiff, Finset.mem_insert, List.mem_toFinset, List.mem_append,
      List.mem_singleton, not_or]
    rintro ⟨rfl | known, outside, _⟩
    · exact ⟨.inr named, outside⟩
    · exact ⟨.inr known, outside⟩
  · have member : fn ∈ p.unexplored active fn := by simp [unexplored, new]
    rw [← same] at member
    simp [unexplored] at member

/-- The worst case from a function while others are being explored. A callee's answer is kept if it is
unbounded and the best so far is not, or if both are finite and it has the greater total. -/
def worst (p : Program) (active : List Name) (fn : Name) : WorstCase :=
  if fn ∈ active then ⟨0, true, [], active.dropWhile (· ≠ fn) ++ [fn]⟩
  else
    let best := (p.callees fn).attach.foldl (fun best callee =>
      let next := p.worst (active ++ [fn]) callee.1
      if best.unbounded = false ∧ (next.unbounded = true ∨ best.total < next.total) then next
      else best) ⟨0, false, [], []⟩
    ⟨if best.unbounded then 0 else p.frameSize fn + best.total, best.unbounded,
      fn :: best.path, best.cycle⟩
termination_by (p.unexplored active fn).card
decreasing_by exact card_unexplored_lt ‹_› callee.2

/-- The worst case among the functions that a function calls. -/
def worstCallee (p : Program) (active : List Name) (fn : Name) : WorstCase :=
  ((p.callees fn).map (p.worst (active ++ [fn]))).foldl WorstCase.max .zero

variable {p : Program} {active other : List Name} {fn : Name}

theorem worst_of_mem (member : fn ∈ active) :
    p.worst active fn = .recursion (active.dropWhile (· ≠ fn) ++ [fn]) := by
  rw [worst, if_pos member]
  rfl

theorem worst_of_not_mem (new : fn ∉ active) :
    p.worst active fn = (p.worstCallee active fn).extend fn (p.frameSize fn) := by
  have best : (p.callees fn).attach.foldl (fun best callee =>
      let next := p.worst (active ++ [fn]) callee.1
      if best.unbounded = false ∧ (next.unbounded = true ∨ best.total < next.total) then next
      else best) ⟨0, false, [], []⟩ = p.worstCallee active fn := by
    simp only [← WorstCase.max_eq]
    rw [worstCallee, List.foldl_map]
    exact List.foldl_attach
      (f := fun (best : WorstCase) callee => best.max (p.worst (active ++ [fn]) callee))
  rw [worst, if_neg new]
  simp only [best, WorstCase.extend]
  split <;> simp_all

/-- The worst answer among callees is that of a callee, unless none asks for stack. -/
theorem worstCallee_cases (p : Program) (active : List Name) (fn : Name) :
    p.worstCallee active fn = .zero ∨
      ∃ callee, p.Calls fn callee ∧ p.worst (active ++ [fn]) callee = p.worstCallee active fn := by
  rcases WorstCase.foldl_max_mem ((p.callees fn).map (p.worst (active ++ [fn]))) .zero with
    kept | found
  · exact .inl kept
  · exact .inr (List.mem_map.mp found)

/-- Induction along the path of a finite answer, from its end to its start. -/
theorem finite_induction {motive : Name → WorstCase → Prop}
    (alone : ∀ fn, motive fn (WorstCase.zero.extend fn (p.frameSize fn)))
    (onward : ∀ fn callee answer, p.Calls fn callee → answer.unbounded = false →
      motive callee answer → motive fn (answer.extend fn (p.frameSize fn)))
    (finite : (p.worst active fn).unbounded = false) : motive fn (p.worst active fn) := by
  induction active, fn using worst.induct p with
  | case1 active fn member => simp [worst_of_mem member, WorstCase.recursion] at finite
  | case2 active fn new ih =>
    rw [worst_of_not_mem new] at finite ⊢
    rw [WorstCase.unbounded_extend] at finite
    rcases p.worstCallee_cases active fn with harmless | ⟨callee, call, same⟩
    · rw [harmless]
      exact alone fn
    · rw [← same] at finite ⊢
      exact onward fn callee _ call finite (ih ⟨callee, call⟩ finite)

theorem unbounded_worst_of_not_mem (new : fn ∉ active) :
    (p.worst active fn).unbounded = true ↔
      ∃ callee, p.Calls fn callee ∧ (p.worst (active ++ [fn]) callee).unbounded = true := by
  rw [worst_of_not_mem new, WorstCase.unbounded_extend, worstCallee, WorstCase.unbounded_foldl_max]
  simp [Calls, WorstCase.zero]

/-- A finite answer leaves no room for a cycle, whatever was being explored. -/
theorem not_reachesCycle_of_finite (finite : (p.worst active fn).unbounded = false) :
    ¬ ReachesCycle p.Calls fn := by
  induction active, fn using worst.induct p with
  | case1 active fn member => simp [worst_of_mem member, WorstCase.recursion] at finite
  | case2 active fn new ih =>
    intro cyclic
    obtain ⟨callee, call, onward⟩ := cyclic.exists_call
    refine ih ⟨callee, call⟩ ?_ onward
    rw [Bool.eq_false_iff] at finite ⊢
    exact fun unbounded => finite ((unbounded_worst_of_not_mem new).mpr ⟨callee, call, unbounded⟩)

/-- An unbounded answer has found a cycle, if the functions being explored are a chain of calls that
ends in this one. -/
theorem reachesCycle_of_unbounded (chain : (active ++ [fn]).IsChain p.Calls)
    (unbounded : (p.worst active fn).unbounded = true) : ReachesCycle p.Calls fn := by
  induction active, fn using worst.induct p with
  | case1 active fn member => exact ⟨fn, .refl, transGen_of_isChain chain member⟩
  | case2 active fn new ih =>
    obtain ⟨callee, call, onward⟩ := (unbounded_worst_of_not_mem new).mp unbounded
    exact .of_call call (ih ⟨callee, call⟩ (isChain_snoc chain call) onward)

theorem unbounded_worst_iff : (p.worst [] fn).unbounded = true ↔ ReachesCycle p.Calls fn := by
  constructor
  · exact reachesCycle_of_unbounded (.singleton fn)
  · intro cyclic
    by_contra finite
    exact not_reachesCycle_of_finite (Bool.eq_false_iff.mpr finite) cyclic

theorem finite_worst (acyclic : ¬ ReachesCycle p.Calls fn) :
    (p.worst [] fn).unbounded = false :=
  Bool.eq_false_iff.mpr (mt unbounded_worst_iff.mp acyclic)

/-- Without a cycle within reach, functions that are not within reach do not matter. -/
theorem worst_congr (acyclic : ¬ ReachesCycle p.Calls fn)
    (apart : ∀ g ∈ active, ¬ ReflTransGen p.Calls fn g)
    (apart' : ∀ g ∈ other, ¬ ReflTransGen p.Calls fn g) :
    p.worst active fn = p.worst other fn := by
  induction active, fn using worst.induct p generalizing other with
  | case1 active fn member => exact absurd .refl (apart fn member)
  | case2 active fn new ih =>
    have new' : fn ∉ other := fun member => apart' fn member .refl
    rw [worst_of_not_mem new, worst_of_not_mem new', worstCallee, worstCallee]
    congr 2
    refine List.map_congr_left fun callee call => ?_
    -- A way from the callee back to the function would close a cycle.
    have back : ¬ ReflTransGen p.Calls callee fn := fun way =>
      acyclic ⟨fn, .refl, TransGen.head' call way⟩
    have extended {names : List Name} (apart : ∀ g ∈ names, ¬ ReflTransGen p.Calls fn g) :
        ∀ g ∈ names ++ [fn], ¬ ReflTransGen p.Calls callee g := by
      intro g member way
      rcases List.mem_append.mp member with earlier | last
      · exact apart g earlier (.head call way)
      · rw [List.mem_singleton.mp last] at way
        exact back way
    exact ih ⟨callee, call⟩ (fun cyclic => acyclic (.of_call call cyclic)) (extended apart)
      (extended apart')

/-- Without a cycle within reach, the answer holds under every chain of calls that leads to the
function. -/
theorem worst_eq_of_acyclic (chain : (active ++ [fn]).IsChain p.Calls)
    (acyclic : ¬ ReachesCycle p.Calls fn) : p.worst active fn = p.worst [] fn := by
  refine worst_congr acyclic (fun g member way => ?_) (by simp)
  have cycle : TransGen p.Calls g g := (transGen_of_isChain chain member).trans_left way
  exact acyclic ⟨g, way, cycle⟩

end Program
end StackBound
