import StackBound.Proofs.WorstCase.Recursion
import StackBound.Proofs.WorstCase.Steps

/-! The search agrees with the recursion. What is remembered is the recursion's answer with nothing
being explored, and it is finite, so it holds under any path that leads to its function. Each frame
of the stack comes to the recursion's answer under the frames below it, once the call above it and
the calls it has left are answered. -/
namespace StackBound

namespace Analyzer

/-- Everything remembered is finite and what the recursion says. -/
def Exact (p : Program) (a : Analyzer) : Prop :=
  ∀ fn answer, a.memo[fn]? = some answer → answer = p.worst [] fn ∧ answer.unbounded = false

theorem exact_fresh (p : Program) : Exact p fresh := by
  intro fn answer found
  simp [fresh] at found

theorem Exact.visit {p : Program} {a : Analyzer} (h : a.Exact p) : a.visit.Exact p := h

theorem Exact.remember {p : Program} {a : Analyzer} {fn : Name} {answer : WorstCase}
    (h : a.Exact p) (agrees : answer.unbounded = false → answer = p.worst [] fn) :
    (a.remember fn answer).Exact p := by
  unfold Analyzer.remember
  split
  next unbounded => exact h
  next finite =>
    rw [Bool.not_eq_true] at finite
    intro other recalled found
    rw [Std.HashMap.getElem?_insert] at found
    split at found
    next same =>
      obtain rfl := Option.some.inj found
      obtain rfl := beq_iff_eq.mp same
      exact ⟨agrees finite, finite⟩
    next => exact h other recalled found

/-- The analyzer after searches from the given functions, one after the other. -/
def after (p : Program) (history : List Name) : Analyzer :=
  history.foldl (fun a start => (a.worstCase p start).2) fresh

end Analyzer

namespace Search

def explored (stack : List Frame) : List Name := (functions stack).reverse

@[simp] theorem explored_cons (f : Frame) (below : List Frame) :
    explored (f :: below) = explored below ++ [f.fn] := by
  simp [explored, functions]

theorem explored_stack {p : Program} {scope : List Name} (s : Search p scope) :
    explored s.stack = explored s.below ++ [s.top.fn] := explored_cons s.top s.below

@[simp] theorem mem_explored {stack : List Frame} {fn : Name} :
    fn ∈ explored stack ↔ fn ∈ functions stack := List.mem_reverse

/-- The cycle read off the stack is the explored path from the function on. -/
theorem cycle_eq {stack : List Frame} {fn : Name} (nodup : (functions stack).Nodup)
    (member : fn ∈ functions stack) :
    cycle stack fn = (explored stack).dropWhile (· ≠ fn) ++ [fn] := by
  obtain ⟨above, under, split⟩ := List.append_of_mem member
  rw [split, List.nodup_append] at nodup
  have apart : ∀ g ∈ above, decide (g ≠ fn) = true := by
    intro g inside
    simpa using nodup.2.2 g inside fn (by simp)
  have apart' : ∀ g ∈ under.reverse, decide (g ≠ fn) = true := by
    intro g inside
    have absent : fn ∉ under := (List.nodup_cons.mp nodup.2.1).1
    simp only [decide_eq_true_eq]
    rintro rfl
    exact absent (List.mem_reverse.mp inside)
  have turned : (above ++ fn :: under).reverse = under.reverse ++ fn :: above.reverse := by simp
  rw [cycle, explored, split, List.takeWhile_append_of_pos apart, turned,
    List.dropWhile_append_of_pos apart']
  simp

/-- Recursion seen on the stack is what the recursion sees. -/
theorem recursion_eq_worst {p : Program} {scope : List Name} (s : Search p scope) {callee : Name}
    (active : callee ∈ s.onPath) :
    WorstCase.recursion (cycle s.stack callee) = p.worst (explored s.stack) callee := by
  have member : callee ∈ functions s.stack := (s.sound.mem_iff callee).mp active
  have nodup : (functions s.stack).Nodup := s.sound.nodup
  rw [Program.worst_of_mem (mem_explored.mpr member), cycle_eq nodup member]

/-- What a frame comes to under the given functions if its remaining calls are answered by the
recursion. -/
def Frame.answer (p : Program) (f : Frame) (active : List Name) : WorstCase :=
  ((f.rest.map (p.worst (active ++ [f.fn]))).foldl .max f.best).extend f.fn (p.frameSize f.fn)

variable {p : Program} {f : Frame} {active rest : List Name} {below : List Frame} {callee : Name}

theorem Frame.answer_of_done (done : f.rest = []) : f.answer p active = f.close p := by
  simp [answer, close, done]

theorem Frame.answer_settle (pending : f.rest = callee :: rest) :
    ((f.skipTo rest).offer (p.worst (active ++ [f.fn]) callee)).answer p active =
      f.answer p active := by
  simp [answer, offer, skipTo, pending]

theorem Frame.answer_open (new : callee ∉ active) :
    (Frame.open p callee).answer p active = p.worst active callee := by
  rw [Program.worst_of_not_mem new]
  rfl

/-- Every frame comes to the recursion's answer, each with the answer of the frame above it taken
in. -/
def Owes (p : Program) : Frame → List Frame → Prop
  | f, [] => f.answer p [] = p.worst [] f.fn
  | f, parent :: below =>
    f.answer p (explored (parent :: below)) = p.worst (explored (parent :: below)) f.fn ∧
      Owes p (parent.offer (p.worst (explored (parent :: below)) f.fn)) below

theorem Owes.answer (h : Owes p f below) :
    f.answer p (explored below) = p.worst (explored below) f.fn := by
  cases below with
  | nil => exact h
  | cons parent below => exact h.1

theorem Owes.congr {f' : Frame} (h : Owes p f below) (fn : f'.fn = f.fn)
    (same : f'.answer p (explored below) = f.answer p (explored below)) : Owes p f' below := by
  cases below with
  | nil =>
    rw [Owes, fn]
    exact same.trans h
  | cons parent below =>
    rw [Owes, fn]
    exact ⟨same.trans h.1, h.2⟩

def Frame.Pending (p : Program) (f : Frame) : Prop := ∀ callee ∈ f.rest, p.Calls f.fn callee

/-- The state of a search from a function: a call path from it is on the stack, and each of its
frames comes to the answer of the recursion. -/
structure Faithful (start : Name) {scope : List Name} (s : Search p scope) : Prop where
  memo : s.analyzer.Exact p
  path : CallPath p.Calls start (explored s.stack)
  pending : ∀ f ∈ s.stack, f.Pending p
  owes : Owes p s.top s.below

namespace Faithful

variable {start : Name} {scope : List Name} {s : Search p scope}

theorem call (h : Faithful start s) (pending : s.top.rest = callee :: rest) :
    p.Calls s.top.fn callee :=
  h.pending s.top (by simp [stack]) callee (by simp [pending])

theorem chain (h : Faithful start s) : (explored s.below ++ [s.top.fn]).IsChain p.Calls := by
  rw [← explored_stack]
  exact h.path.chain

/-- The path on the stack can be taken on to the next callee. -/
theorem path_snoc (h : Faithful start s) (pending : s.top.rest = callee :: rest) :
    CallPath p.Calls start (explored s.stack ++ [callee]) := by
  have path := h.path
  rw [explored_stack] at path ⊢
  exact path.snoc (h.call pending)

theorem pending_skip (h : Faithful start s) (pending : s.top.rest = callee :: rest) :
    (s.top.skipTo rest).Pending p ∧ ∀ f ∈ s.below, f.Pending p := by
  obtain ⟨top, lower⟩ := List.forall_mem_cons.mp h.pending
  refine ⟨fun c inside => top c ?_, lower⟩
  rw [pending]
  exact List.mem_cons_of_mem _ inside

theorem owes_settle (h : Faithful start s) (pending : s.top.rest = callee :: rest) :
    Owes p ((s.top.skipTo rest).offer (p.worst (explored s.stack) callee)) s.below := by
  refine h.owes.congr rfl ?_
  rw [explored_stack]
  exact Frame.answer_settle pending

/-- An answer may be taken in for the next call if the recursion gives it under the functions on
the stack. -/
theorem settle (h : Faithful start s) (pending : s.top.rest = callee :: rest) {answer : WorstCase}
    (agrees : answer = p.worst (explored s.stack) callee) :
    Faithful start (s.settle pending answer) where
  memo := h.memo
  path := by simpa [explored_stack s] using h.path
  pending := List.forall_mem_cons.mpr (h.pending_skip pending)
  owes := by
    subst agrees
    exact h.owes_settle pending

/-- What is remembered holds under the functions on the stack. -/
theorem recalled_eq (h : Faithful start s) (pending : s.top.rest = callee :: rest)
    {answer : WorstCase} (known : s.analyzer.memo[callee]? = some answer) :
    answer = p.worst (explored s.stack) callee := by
  obtain ⟨rfl, finite⟩ := h.memo callee answer known
  have acyclic := Program.not_reachesCycle_of_finite finite
  exact (Program.worst_eq_of_acyclic (h.path_snoc pending).chain acyclic).symm

theorem enter (h : Faithful start s) (pending : s.top.rest = callee :: rest)
    (new : callee ∉ s.onPath) : Faithful start (s.enter pending new) where
  memo := h.memo.visit
  path := by simpa [explored_stack s] using h.path_snoc pending
  pending := List.forall_mem_cons.mpr
    ⟨fun _ inside => inside, List.forall_mem_cons.mpr (h.pending_skip pending)⟩
  owes := by
    have outside : callee ∉ explored s.stack :=
      mt mem_explored.mp (mt (s.sound.mem_iff callee).mpr new)
    have same : explored (s.top.skipTo rest :: s.below) = explored s.stack := by
      simp [explored_stack s]
    refine ⟨Frame.answer_open (same ▸ outside), ?_⟩
    rw [same]
    exact h.owes_settle pending

theorem close_eq (h : Faithful start s) (done : s.top.rest = []) :
    s.top.close p = p.worst (explored s.below) s.top.fn := by
  rw [← Frame.answer_of_done done]
  exact h.owes.answer

/-- The answer of a function that is done may be remembered: if it is finite, it does not depend on
the functions below. -/
theorem learnt (h : Faithful start s) (done : s.top.rest = []) : s.learnt.Exact p := by
  refine h.memo.remember fun finite => ?_
  rw [h.close_eq done] at finite ⊢
  exact Program.worst_eq_of_acyclic h.chain (Program.not_reachesCycle_of_finite finite)

theorem leave (h : Faithful start s) (done : s.top.rest = []) {parent : Frame}
    (lower : s.below = parent :: below) : Faithful start (s.leave lower) where
  memo := h.learnt done
  path := by
    have path := h.path
    rw [explored_stack] at path
    simpa [lower] using path.pop (by simp [lower])
  pending := by
    have kept := (List.forall_mem_cons.mp h.pending).2
    rw [lower] at kept
    obtain ⟨called, others⟩ := List.forall_mem_cons.mp kept
    exact List.forall_mem_cons.mpr ⟨called, others⟩
  owes := by
    have owes := h.owes
    rw [lower] at owes
    have closed := h.close_eq done
    rw [lower] at closed
    show Owes p (parent.offer (s.top.close p)) below
    rw [closed]
    exact owes.2

theorem fn_bottom (h : Faithful start s) (bottom : s.below = []) : s.top.fn = start := by
  have head := h.path.head
  rw [explored_stack, bottom] at head
  simpa [explored, functions] using head

theorem step {t : Search p scope} (h : Faithful start s) (taken : Step s (.inl t)) :
    Faithful start t := by
  cases taken with
  | recursion pending active => exact h.settle pending (recursion_eq_worst s active)
  | recalled pending new known => exact h.settle pending (h.recalled_eq pending known)
  | entered pending new unknown => exact h.enter pending new
  | left done lower => exact h.leave done lower

theorem result {r : WorstCase × Analyzer} (h : Faithful start s) (taken : Step s (.inr r)) :
    r.1 = p.worst [] start ∧ r.2.Exact p := by
  cases taken with
  | finished done bottom =>
    have closed := h.close_eq done
    rw [bottom, h.fn_bottom bottom] at closed
    exact ⟨closed, h.learnt done⟩

end Faithful
end Search

namespace Analyzer

theorem faithful_search {p : Program} {a : Analyzer} (h : a.Exact p) (start : Name) :
    (a.search p start).Faithful start where
  memo := h.visit
  path := .single
  pending := List.forall_mem_singleton.mpr fun _ inside => inside
  owes := Search.Frame.answer_open (by simp)

/-- One search answers as the recursion does, and leaves the memo exact. -/
theorem Exact.worstCase {p : Program} {a : Analyzer} (h : a.Exact p) (start : Name) :
    (a.worstCase p start).1 = p.worst [] start ∧ (a.worstCase p start).2.Exact p := by
  unfold Analyzer.worstCase
  split
  next answer known => exact ⟨(h start answer known).1, h⟩
  next =>
    exact Search.run_of_steps (Search.Faithful start)
      (fun r => r.1 = p.worst [] start ∧ r.2.Exact p) .step Search.Faithful.result
      (faithful_search h start)

theorem exact_after (p : Program) (history : List Name) : (after p history).Exact p := by
  suffices kept : ∀ a : Analyzer, a.Exact p →
      (history.foldl (fun a start => (a.worstCase p start).2) a).Exact p from
    kept fresh (exact_fresh p)
  induction history with
  | nil => exact fun a h => h
  | cons start rest ih => exact fun a h => ih _ (h.worstCase start).2

theorem worstCase_after (p : Program) (history : List Name) (start : Name) :
    ((after p history).worstCase p start).1 = p.worst [] start :=
  ((exact_after p history).worstCase start).1

open CallGraph (Graph Overlay) in
/-- Over a graph with calls assumed beside it, a search answers as the recursion does, total, path
and cycle alike, whatever was searched before. A missing graph is the empty one. -/
theorem worstCase_eq_recursion (g : Graph) (overlay : Overlay) (sizes : Name → Int64)
    (history : List Name) (start : Name) :
    ((after (.ofGraph g overlay sizes) history).worstCase (.ofGraph g overlay sizes) start).1 =
      (Program.ofGraph g overlay sizes).worst [] start :=
  worstCase_after _ history start

end Analyzer
end StackBound
