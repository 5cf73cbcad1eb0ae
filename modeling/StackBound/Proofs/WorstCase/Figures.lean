import StackBound.Proofs.WorstCase.Recursion

/-! The figures of an answer: all but the functions it names. Which path or cycle is named depends on
the order in which calls are looked at; the figures only depend on which calls there are, even where
sums wrap. -/
namespace StackBound

namespace WorstCase

def figures (a : WorstCase) : WorstCase := { a with path := [], cycle := [] }

@[simp] theorem greater_figures (a b : WorstCase) : a.figures.greater b.figures = a.greater b := rfl

@[simp] theorem level_figures (a : WorstCase) : a.figures.level = a.level := rfl

theorem figures_extend (fn : Name) (size : Int64) (best : WorstCase) :
    (best.extend fn size).figures = (best.figures.extend fn size).figures := by
  cases h : best.unbounded <;> simp [extend, figures, h]

/-- An unbounded answer tells no total. -/
def ZeroIfUnbounded (a : WorstCase) : Prop := a.unbounded = true → a.total = 0

theorem zeroIfUnbounded_zero : ZeroIfUnbounded zero := fun _ => rfl

theorem zeroIfUnbounded_extend (fn : Name) (size : Int64) (best : WorstCase) :
    ZeroIfUnbounded (best.extend fn size) := by
  intro unbounded
  rw [unbounded_extend] at unbounded
  simp [extend, unbounded]

/-- The level of such an answer tells its figures. -/
theorem figures_eq_of_level {a b : WorstCase} (ha : a.ZeroIfUnbounded) (hb : b.ZeroIfUnbounded)
    (same : a.level = b.level) : a.figures = b.figures := by
  cases unbounded : b.unbounded with
  | true =>
    have top : a.unbounded = true := by
      rw [← level_eq_top, same, level_eq_top]
      exact unbounded
    simp [figures, top, unbounded, ha top, hb unbounded]
  | false =>
    have finite : a.unbounded = false := by
      rw [Bool.eq_false_iff, Ne, ← level_eq_top, same, level_eq_top, unbounded]
      decide
    rw [level_of_finite finite, level_of_finite unbounded, WithTop.coe_inj, Int64.toInt_inj] at same
    simp [figures, finite, unbounded, same]

end WorstCase

namespace Program

variable {p p' : Program} {active : List Name} {fn : Name}

theorem zeroIfUnbounded_worst (p : Program) (active : List Name) (fn : Name) :
    (p.worst active fn).ZeroIfUnbounded := by
  by_cases member : fn ∈ active
  · rw [worst_of_mem member]
    exact fun _ => rfl
  · rw [worst_of_not_mem member]
    exact WorstCase.zeroIfUnbounded_extend fn _ _

theorem zeroIfUnbounded_worstCallee (p : Program) (active : List Name) (fn : Name) :
    (p.worstCallee active fn).ZeroIfUnbounded := by
  rcases p.worstCallee_cases active fn with harmless | ⟨callee, -, same⟩
  · rw [harmless]
    exact WorstCase.zeroIfUnbounded_zero
  · rw [← same]
    exact p.zeroIfUnbounded_worst _ callee

/-- The level of the worst callee is the least bound of what the callees ask for. -/
theorem level_worstCallee_le {bound : WithTop Int} :
    (p.worstCallee active fn).level ≤ bound ↔
      0 ≤ bound ∧ ∀ callee, p.Calls fn callee → (p.worst (active ++ [fn]) callee).level ≤ bound := by
  rw [worstCallee, WorstCase.level_foldl_max_le, List.forall_mem_map]
  rfl

/-- Programs with the same calls and frames, listed in any order, have the same figures. -/
theorem figures_worst_congr (calls : ∀ fn callee, p.Calls fn callee ↔ p'.Calls fn callee)
    (sizes : ∀ fn, p.frameSize fn = p'.frameSize fn) (active : List Name) (fn : Name) :
    (p.worst active fn).figures = (p'.worst active fn).figures := by
  induction active, fn using worst.induct p with
  | case1 active fn member =>
    rw [worst_of_mem member, worst_of_mem member]
  | case2 active fn new ih =>
    have callees (callee : Name) (call : p.Calls fn callee) :
        (p.worst (active ++ [fn]) callee).level = (p'.worst (active ++ [fn]) callee).level := by
      rw [← WorstCase.level_figures, ih ⟨callee, call⟩, WorstCase.level_figures]
    -- Each of the two is a bound of what the callees ask for in the other program.
    have level : (p.worstCallee active fn).level = (p'.worstCallee active fn).level := by
      apply le_antisymm
      · obtain ⟨least, most⟩ := level_worstCallee_le.mp (le_refl (p'.worstCallee active fn).level)
        refine level_worstCallee_le.mpr ⟨least, fun callee call => ?_⟩
        rw [callees callee call]
        exact most callee ((calls fn callee).mp call)
      · obtain ⟨least, most⟩ := level_worstCallee_le.mp (le_refl (p.worstCallee active fn).level)
        refine level_worstCallee_le.mpr ⟨least, fun callee call => ?_⟩
        have call := (calls fn callee).mpr call
        rw [← callees callee call]
        exact most callee call
    have best := WorstCase.figures_eq_of_level (p.zeroIfUnbounded_worstCallee active fn)
      (p'.zeroIfUnbounded_worstCallee active fn) level
    rw [worst_of_not_mem new, worst_of_not_mem new, WorstCase.figures_extend, best, sizes,
      ← WorstCase.figures_extend]

end Program
end StackBound
