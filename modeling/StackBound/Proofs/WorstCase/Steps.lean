import StackBound.WorstCase.Search

/-! What one step of a search can do, and what follows for a whole run. Everything about searches is
derived from the five kinds of steps told apart here. -/
namespace StackBound

namespace Search

variable {p : Program} {scope : List Name}

@[simp] theorem Frame.fn_open (fn : Name) : (Frame.open p fn).fn = fn := rfl
@[simp] theorem Frame.fn_offer (f : Frame) (answer : WorstCase) : (f.offer answer).fn = f.fn := rfl
@[simp] theorem Frame.fn_skipTo (f : Frame) (rest : List Name) : (f.skipTo rest).fn = f.fn := rfl

@[simp] theorem stack_settle {s : Search p scope} {callee : Name} {rest : List Name}
    (pending : s.top.rest = callee :: rest) (answer : WorstCase) :
    (s.settle pending answer).stack = (s.top.skipTo rest).offer answer :: s.below := rfl

@[simp] theorem stack_enter {s : Search p scope} {callee : Name} {rest : List Name}
    (pending : s.top.rest = callee :: rest) (new : callee ∉ s.onPath) :
    (s.enter pending new).stack = .open p callee :: s.top.skipTo rest :: s.below := rfl

@[simp] theorem stack_leave {s : Search p scope} {parent : Frame} {below : List Frame}
    (lower : s.below = parent :: below) :
    (s.leave lower).stack = parent.offer (s.top.close p) :: below := rfl

inductive Step (s : Search p scope) : Search p scope ⊕ (WorstCase × Analyzer) → Prop
  /-- The next callee is on the stack. -/
  | recursion {callee : Name} {rest : List Name} (pending : s.top.rest = callee :: rest)
      (active : callee ∈ s.onPath) :
      Step s (.inl (s.settle pending (.recursion (cycle s.stack callee))))
  /-- The next callee is remembered. -/
  | recalled {callee : Name} {rest : List Name} {answer : WorstCase}
      (pending : s.top.rest = callee :: rest) (new : callee ∉ s.onPath)
      (known : s.analyzer.memo[callee]? = some answer) : Step s (.inl (s.settle pending answer))
  /-- The next callee has to be explored. -/
  | entered {callee : Name} {rest : List Name} (pending : s.top.rest = callee :: rest)
      (new : callee ∉ s.onPath) (unknown : s.analyzer.memo[callee]? = none) :
      Step s (.inl (s.enter pending new))
  /-- The top function is done and was called by another. -/
  | left {parent : Frame} {below : List Frame} (done : s.top.rest = [])
      (lower : s.below = parent :: below) : Step s (.inl (s.leave lower))
  /-- The top function is done and is the start. -/
  | finished (done : s.top.rest = []) (bottom : s.below = []) :
      Step s (.inr (s.top.close p, s.learnt))

theorem step_cases (s : Search p scope) : Step s s.step := by
  unfold step
  split
  next callee rest pending =>
    split
    next active => exact .recursion pending active
    next new =>
      split
      next answer known => exact .recalled pending new known
      next unknown => exact .entered pending new unknown
  next done =>
    split
    next bottom => exact .finished done bottom
    next parent below lower => exact .left done lower

theorem run_of_next {s t : Search p scope} (taken : s.step = .inl t) : s.run = t.run := by
  rw [run]
  split <;> simp_all

theorem run_of_last {s : Search p scope} {r : WorstCase × Analyzer} (taken : s.step = .inr r) :
    s.run = r := by
  rw [run]
  split <;> simp_all

/-- What every step keeps and every last step turns into a result holds of the result of a run. -/
theorem run_of_steps (keeps : Search p scope → Prop) (result : WorstCase × Analyzer → Prop)
    (next : ∀ {s t}, keeps s → Step s (.inl t) → keeps t)
    (last : ∀ {s r}, keeps s → Step s (.inr r) → result r) {s : Search p scope} (h : keeps s) :
    result s.run := by
  fun_induction run s with
  | case1 s t taken _ ih => exact ih (next h (taken ▸ s.step_cases))
  | case2 s r taken => exact last h (taken ▸ s.step_cases)

end Search

namespace Analyzer

variable {p : Program} {a : Analyzer} {start : Name}

theorem worstCase_of_known {answer : WorstCase} (known : a.memo[start]? = some answer) :
    a.worstCase p start = (answer, a) := by
  simp [worstCase, known]

theorem worstCase_of_unknown (unknown : a.memo[start]? = none) :
    a.worstCase p start = (a.search p start).run := by
  simp [worstCase, unknown]

end Analyzer
end StackBound
