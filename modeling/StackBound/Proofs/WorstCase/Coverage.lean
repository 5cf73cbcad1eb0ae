import StackBound.Proofs.WorstCase.Agreement

/-! What a search has expanded and what it has covered. Functions that reach a cycle are explored again
on every path that leads to them, so no search marks them as done; but a function that is closed is
covered: whatever is reached from it around the functions still being explored, and reaches no cycle
itself, is remembered. -/
namespace StackBound

open Relation (ReflTransGen)

/-- A function is reached without passing through any of those avoided. -/
def ReachesAround (calls : Name → Name → Prop) (avoided : List Name) (fn target : Name) : Prop :=
  fn ∉ avoided ∧ ReflTransGen (fun a b => calls a b ∧ b ∉ avoided) fn target

namespace ReachesAround

variable {calls : Name → Name → Prop} {avoided : List Name} {fn target : Name}

theorem refl (outside : fn ∉ avoided) : ReachesAround calls avoided fn fn := ⟨outside, .refl⟩

theorem reaches (h : ReachesAround calls avoided fn target) : ReflTransGen calls fn target :=
  ReflTransGen.mono (fun _ _ step => step.1) _ _ h.2

theorem of_reaches (h : ReflTransGen calls fn target) : ReachesAround calls [] fn target :=
  ⟨List.not_mem_nil, ReflTransGen.mono (fun _ _ call => ⟨call, List.not_mem_nil⟩) _ _ h⟩

/-- A way to another function leaves a function for the last time by some call, and from there on
avoids it as well. -/
theorem exists_call (h : ReachesAround calls avoided fn target) (other : target ≠ fn) :
    ∃ callee, calls fn callee ∧ ReachesAround calls (avoided ++ [fn]) callee target := by
  obtain ⟨outside, way⟩ := h
  suffices leaves : ∀ {x}, ReflTransGen (fun a b => calls a b ∧ b ∉ avoided) x target →
      x ∉ avoided → ReachesAround calls (avoided ++ [fn]) x target ∨
        ∃ callee, calls fn callee ∧ ReachesAround calls (avoided ++ [fn]) callee target by
    rcases leaves way outside with around | found
    · exact absurd (by simp) around.1
    · exact found
  intro x way
  induction way using ReflTransGen.head_induction_on with
  | refl => exact fun outside => .inl (.refl (by simp [outside, other]))
  | @head x y step _ ih =>
    intro outside
    rcases ih step.2 with around | found
    · by_cases same : x = fn
      · subst same
        exact .inr ⟨y, step.1, around⟩
      · exact .inl ⟨by simp [outside, same], .head ⟨step.1, around.1⟩ around.2⟩
    · exact .inr found

end ReachesAround

namespace Analyzer

variable {p : Program} {a : Analyzer} {fn callee : Name} {active : List Name} {answer : WorstCase}

theorem mem_of_found (found : a.memo[fn]? = some answer) : fn ∈ a.memo := by
  simp [Std.HashMap.mem_iff_isSome_getElem?, found]

theorem mem_remember {other : Name} : other ∈ (a.remember fn answer).memo ↔
    other ∈ a.memo ∨ answer.unbounded = false ∧ other = fn := by
  unfold remember
  split
  next unbounded => simp [unbounded]
  next finite =>
    rw [Std.HashMap.mem_insert, beq_iff_eq]
    constructor
    · rintro (rfl | known)
      · exact .inr ⟨Bool.eq_false_iff.mpr finite, rfl⟩
      · exact .inl known
    · rintro (known | ⟨-, rfl⟩)
      · exact .inr known
      · exact .inl rfl

/-- Every function reached around those being explored is remembered, unless it reaches a cycle. -/
def Covers (p : Program) (a : Analyzer) (active : List Name) (fn : Name) : Prop :=
  ∀ target, ReachesAround p.Calls active fn target → ¬ ReachesCycle p.Calls target →
    target ∈ a.memo

theorem Covers.mono {b : Analyzer} (h : a.Covers p active fn) (grown : ∀ g ∈ a.memo, g ∈ b.memo) :
    b.Covers p active fn :=
  fun target way acyclic => grown target (h target way acyclic)

/-- With a function its callees are remembered. -/
def Closed (p : Program) (a : Analyzer) : Prop :=
  ∀ fn ∈ a.memo, ∀ callee, p.Calls fn callee → callee ∈ a.memo

theorem Closed.mem_of_reaches {target : Name} (h : a.Closed p) (known : fn ∈ a.memo)
    (way : ReflTransGen p.Calls fn target) : target ∈ a.memo := by
  induction way with
  | refl => exact known
  | tail _ call ih => exact h _ ih _ call

theorem Closed.covers (h : a.Closed p) (known : fn ∈ a.memo) : a.Covers p active fn :=
  fun _ way _ => h.mem_of_reaches known way.reaches

/-- The books of an analyzer: what was expanded so far is counted, and a function that reaches no cycle
was expanded once if it is remembered or being explored, else not at all. -/
structure Tallies (p : Program) (log active : List Name) (a : Analyzer) : Prop where
  exact : a.Exact p
  closed : a.Closed p
  visits : a.visits = log.length
  counted : ∀ fn, ¬ ReachesCycle p.Calls fn →
    log.count fn = if fn ∈ a.memo ∨ fn ∈ active then 1 else 0

namespace Tallies

variable {log : List Name}

theorem not_reachesCycle (h : a.Tallies p log active) (known : fn ∈ a.memo) :
    ¬ ReachesCycle p.Calls fn := by
  obtain ⟨agrees, finite⟩ := h.exact fn _ (Std.HashMap.getElem?_eq_some_getElem known)
  rw [agrees] at finite
  exact Program.not_reachesCycle_of_finite finite

theorem count_of_mem (h : a.Tallies p log active) (known : fn ∈ a.memo) : log.count fn = 1 := by
  rw [h.counted fn (h.not_reachesCycle known), if_pos (.inl known)]

theorem visit (h : a.Tallies p log active) (unknown : callee ∉ a.memo) (new : callee ∉ active) :
    a.visit.Tallies p (log ++ [callee]) (callee :: active) where
  exact := h.exact.visit
  closed := h.closed
  visits := by simp [Analyzer.visit, h.visits]
  counted := by
    intro fn acyclic
    rw [List.count_append, h.counted fn acyclic]
    by_cases same : callee = fn
    · subst same
      simp [unknown, new]
    · simp [Analyzer.visit, same, Ne.symm same]

/-- The top function leaves those being explored for the memo, unless it reaches a cycle. -/
theorem remember (h : a.Tallies p log (fn :: active))
    (exact : (a.remember fn answer).Exact p)
    (decided : ¬ ReachesCycle p.Calls fn → answer.unbounded = false)
    (callees : answer.unbounded = false → ∀ callee, p.Calls fn callee → callee ∈ a.memo) :
    (a.remember fn answer).Tallies p log active where
  exact := exact
  closed := by
    intro g known callee call
    rw [mem_remember] at known ⊢
    rcases known with earlier | ⟨finite, rfl⟩
    · exact .inl (h.closed g earlier callee call)
    · exact .inl (callees finite callee call)
  visits := by
    rw [← h.visits, Analyzer.remember]
    split <;> rfl
  counted := by
    intro g acyclic
    rw [h.counted g acyclic]
    refine if_congr ?_ rfl rfl
    rw [mem_remember, List.mem_cons]
    constructor
    · rintro (known | rfl | inside)
      · exact .inl (.inl known)
      · exact .inl (.inr ⟨decided acyclic, rfl⟩)
      · exact .inr inside
    · rintro ((known | ⟨-, rfl⟩) | inside)
      · exact .inl known
      · exact .inr (.inl rfl)
      · exact .inr (.inr inside)

end Tallies
end Analyzer

namespace Search

variable {p : Program} {scope : List Name}

/-- The function that a step has put on the stack, if any. -/
def opened (s t : Search p scope) : List Name :=
  if s.below.length < t.below.length then [t.top.fn] else []

@[simp] theorem opened_settle {s : Search p scope} {callee : Name} {rest : List Name}
    (pending : s.top.rest = callee :: rest) (answer : WorstCase) :
    opened s (s.settle pending answer) = [] := by
  simp [opened, settle]

@[simp] theorem opened_enter {s : Search p scope} {callee : Name} {rest : List Name}
    (pending : s.top.rest = callee :: rest) (new : callee ∉ s.onPath) :
    opened s (s.enter pending new) = [callee] := by
  simp [opened, enter]

@[simp] theorem opened_leave {s : Search p scope} {parent : Frame} {below : List Frame}
    (lower : s.below = parent :: below) : opened s (s.leave lower) = [] := by
  simp [opened, leave, lower]

/-- The functions that a search expands from its present state on. -/
def expansions (s : Search p scope) : List Name :=
  match taken : s.step with
  | .inl t =>
    have := remaining_lt taken
    opened s t ++ t.expansions
  | .inr _ => []
termination_by s.remaining

/-- What every step keeps along with what it expands, and every last step turns into a result, holds of
the result of a run and all it has expanded. -/
theorem run_of_expansions (keeps : List Name → Search p scope → Prop)
    (result : List Name → WorstCase × Analyzer → Prop)
    (next : ∀ {log s t}, keeps log s → Step s (.inl t) → keeps (log ++ opened s t) t)
    (last : ∀ {log s r}, keeps log s → Step s (.inr r) → result log r) {log : List Name}
    {s : Search p scope} (h : keeps log s) : result (log ++ s.expansions) s.run := by
  fun_induction expansions s generalizing log with
  | case1 s t taken _ ih =>
    rw [run_of_next taken, ← List.append_assoc]
    exact ih (next h (taken ▸ s.step_cases))
  | case2 s r taken =>
    rw [run_of_last taken, List.append_nil]
    exact last h (taken ▸ s.step_cases)

/-- Every callee of a function on the stack is pending, next above it on the stack, or covered. -/
def Handled (p : Program) (a : Analyzer) : List Name → List Frame → Prop
  | _, [] => True
  | above, f :: below =>
    (∀ callee, p.Calls f.fn callee →
      callee ∈ f.rest ∨ callee ∈ above ∨ a.Covers p (explored (f :: below)) callee) ∧
    Handled p a [f.fn] below

theorem Handled.mono {a b : Analyzer} {above : List Name} {stack : List Frame}
    (h : Handled p a above stack) (grown : ∀ fn ∈ a.memo, fn ∈ b.memo) :
    Handled p b above stack := by
  induction stack generalizing above with
  | nil => trivial
  | cons f below ih =>
    refine ⟨fun callee call => ?_, ih h.2⟩
    rcases h.1 callee call with pending | next | covered
    · exact .inl pending
    · exact .inr (.inl next)
    · exact .inr (.inr (covered.mono grown))

/-- A frame may change as long as no callee that was left is lost. -/
theorem Handled.change {a : Analyzer} {above above' : List Name} {f f' : Frame} {below : List Frame}
    (h : Handled p a above (f :: below)) (fn : f'.fn = f.fn)
    (left : ∀ callee, callee ∈ f.rest ∨ callee ∈ above →
      callee ∈ f'.rest ∨ callee ∈ above' ∨ a.Covers p (explored (f :: below)) callee) :
    Handled p a above' (f' :: below) := by
  simp only [Handled, explored_cons, fn] at h left ⊢
  refine ⟨fun callee call => ?_, h.2⟩
  rcases h.1 callee call with pending | next | covered
  · exact left callee (.inl pending)
  · exact left callee (.inr next)
  · exact .inr (.inr covered)

/-- The next callee is no longer pending once it is above the frame or covered. -/
theorem Handled.skip {a : Analyzer} {above rest : List Name} {callee : Name} {f f' : Frame}
    {below : List Frame} (h : Handled p a [] (f :: below)) (pending : f.rest = callee :: rest)
    (fn : f'.fn = f.fn) (left : f'.rest = rest)
    (settled : callee ∈ above ∨ a.Covers p (explored (f :: below)) callee) :
    Handled p a above (f' :: below) := by
  refine h.change fn fun other waiting => ?_
  rw [pending, List.mem_cons] at waiting
  rcases waiting with (rfl | later) | next
  · exact .inr settled
  · exact .inl (left ▸ later)
  · cases next

end Search
end StackBound
