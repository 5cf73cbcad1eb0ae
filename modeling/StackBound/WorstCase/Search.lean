import StackBound.WorstCase.Program
import StackBound.WorstCase.Result

/-! The search for the worst case. It keeps its own stack of functions under exploration, so depth is
bounded by memory alone, and it remembers every finite answer. A function on the stack is met again
exactly by recursion; that is looked at before anything remembered.

A search never runs dry: its stack has a top, no function is on it twice, and every function on it or
still to be explored is the start or a called name. So the stack cannot outgrow the program, and
`weight`, an upper bound on the steps that remain, goes down with each step. -/
namespace StackBound

/-- What earlier searches of one program found. -/
structure Analyzer where
  memo : Std.HashMap Name WorstCase
  /-- How many functions were expanded. -/
  visits : Nat

namespace Analyzer

def fresh : Analyzer := ⟨∅, 0⟩

def memoized (a : Analyzer) : Nat := a.memo.size

def visit (a : Analyzer) : Analyzer := { a with visits := a.visits + 1 }

/-- Finite answers hold wherever the function is met; unbounded ones belong to one path. -/
def remember (a : Analyzer) (fn : Name) (answer : WorstCase) : Analyzer :=
  if answer.unbounded then a else { a with memo := a.memo.insert fn answer }

end Analyzer

namespace Search

/-- A function under exploration: the calls left to follow, and the worst answer so far. -/
structure Frame where
  fn : Name
  rest : List Name
  best : WorstCase

def Frame.offer (f : Frame) (answer : WorstCase) : Frame := { f with best := f.best.max answer }

def Frame.skipTo (f : Frame) (rest : List Name) : Frame := { f with rest := rest }

def Frame.open (p : Program) (fn : Name) : Frame := ⟨fn, p.callees fn, .zero⟩

def Frame.close (p : Program) (f : Frame) : WorstCase := f.best.extend f.fn (p.frameSize f.fn)

def functions (stack : List Frame) : List Name := stack.map (·.fn)

/-- The calls from a function on the stack, top first, back to itself. -/
def cycle (stack : List Frame) (fn : Name) : List Name :=
  fn :: ((functions stack).takeWhile (· ≠ fn)).reverse ++ [fn]

/-- The stack holds each function once, the path set is its set of functions, and only names of the
scope occur. -/
structure Sound (scope : List Name) (onPath : Std.HashSet Name) (stack : List Frame) : Prop where
  nodup : (functions stack).Nodup
  mem_iff : ∀ fn, fn ∈ onPath ↔ fn ∈ functions stack
  within : ∀ fn ∈ functions stack, fn ∈ scope
  pending : ∀ f ∈ stack, ∀ c ∈ f.rest, c ∈ scope

/-- An upper bound on the steps needed to explore a function when the stack may still grow by
the given number of frames. -/
def cost (p : Program) : Nat → Name → Nat
  | 0, _ => 0
  | room + 1, fn => 1 + (p.callees fn).foldr (fun c total => 1 + cost p room c + total) 0

def pendingCost (p : Program) (room : Nat) (rest : List Name) : Nat :=
  rest.foldr (fun c total => 1 + cost p room c + total) 0

def weight (p : Program) (size : Nat) : List Frame → Nat
  | [] => 0
  | top :: below =>
    1 + pendingCost p (size - (below.length + 1)) top.rest + weight p size below

end Search

/-- A search under way. -/
structure Search (p : Program) (scope : List Name) where
  analyzer : Analyzer
  onPath : Std.HashSet Name
  top : Search.Frame
  below : List Search.Frame
  closed : ∀ n ∈ p.names, n ∈ scope
  sound : Search.Sound scope onPath (top :: below)

namespace Search

variable {p : Program} {scope : List Name}

def stack (s : Search p scope) : List Frame := s.top :: s.below

def learnt (s : Search p scope) : Analyzer := s.analyzer.remember s.top.fn (s.top.close p)

theorem Sound.narrow {onPath : Std.HashSet Name} {top top' : Frame} {below : List Frame}
    (h : Sound scope onPath (top :: below)) (fn : top'.fn = top.fn)
    (rest : ∀ c ∈ top'.rest, c ∈ top.rest) : Sound scope onPath (top' :: below) where
  nodup := by simpa [functions, fn] using h.nodup
  mem_iff := by simpa [functions, fn] using h.mem_iff
  within := by simpa [functions, fn] using h.within
  pending := by
    intro f hf c hc
    rcases List.mem_cons.1 hf with rfl | hf
    · exact h.pending top (by simp) c (rest c hc)
    · exact h.pending f (List.mem_cons_of_mem _ hf) c hc

theorem Sound.push {onPath : Std.HashSet Name} {stack : List Frame} {fn : Name}
    (h : Sound scope onPath stack) (closed : ∀ n ∈ p.names, n ∈ scope)
    (new : fn ∉ onPath) (known : fn ∈ scope) :
    Sound scope (onPath.insert fn) (Frame.open p fn :: stack) where
  nodup := by
    have hn := h.nodup
    have hm := mt (h.mem_iff fn).2 new
    simp only [functions, List.map_cons, List.nodup_cons] at *
    exact ⟨hm, hn⟩
  mem_iff := by
    intro g
    simp only [Std.HashSet.mem_insert, h.mem_iff g, functions, List.map_cons, List.mem_cons,
      Frame.open, beq_iff_eq]
    exact or_congr_left eq_comm
  within := by
    intro g hg
    rcases List.mem_cons.1 hg with rfl | hg
    · exact known
    · exact h.within g hg
  pending := by
    intro f hf c hc
    rcases List.mem_cons.1 hf with rfl | hf
    · exact closed c (p.callees_mem hc)
    · exact h.pending f hf c hc

theorem Sound.pop {onPath : Std.HashSet Name} {top : Frame} {below : List Frame}
    (h : Sound scope onPath (top :: below)) : Sound scope (onPath.erase top.fn) below where
  nodup := (List.nodup_cons.1 h.nodup).2
  mem_iff := by
    intro g
    have hn : top.fn ∉ functions below := (List.nodup_cons.1 h.nodup).1
    have hm := h.mem_iff g
    simp only [functions, List.map_cons, List.mem_cons] at hm hn
    simp only [Std.HashSet.mem_erase, hm, functions, beq_eq_false_iff_ne]
    constructor
    · rintro ⟨ne, rfl | hg⟩
      · exact absurd rfl ne
      · exact hg
    · intro hg
      exact ⟨fun e => hn (e ▸ hg), .inr hg⟩
  within g hg := h.within g (List.mem_cons_of_mem _ hg)
  pending f hf := h.pending f (List.mem_cons_of_mem _ hf)

/-- Takes an answer for the next call of the top function. -/
def settle (s : Search p scope) {callee : Name} {rest : List Name}
    (pending : s.top.rest = callee :: rest) (answer : WorstCase) : Search p scope :=
  { s with
    top := (s.top.skipTo rest).offer answer
    sound := s.sound.narrow rfl fun _ h => pending ▸ List.mem_cons_of_mem _ h }

def enter (s : Search p scope) {callee : Name} {rest : List Name}
    (pending : s.top.rest = callee :: rest) (new : callee ∉ s.onPath) : Search p scope :=
  { s with
    analyzer := s.analyzer.visit
    onPath := s.onPath.insert callee
    top := .open p callee
    below := s.top.skipTo rest :: s.below
    sound :=
      have narrow : Sound scope s.onPath (s.top.skipTo rest :: s.below) :=
        s.sound.narrow rfl fun _ h => pending ▸ List.mem_cons_of_mem _ h
      narrow.push s.closed new (s.sound.pending s.top (by simp) callee (by simp [pending])) }

def leave (s : Search p scope) {parent : Frame} {below : List Frame}
    (lower : s.below = parent :: below) : Search p scope :=
  { s with
    analyzer := s.learnt
    onPath := s.onPath.erase s.top.fn
    top := parent.offer (s.top.close p)
    below := below
    sound :=
      have popped : Sound scope (s.onPath.erase s.top.fn) (parent :: below) := lower ▸ s.sound.pop
      popped.narrow rfl fun _ h => h }

/-- One step: follow the next call of the top function, or close it when none is left. The search
ends with the answer for its bottom function. -/
def step (s : Search p scope) : Search p scope ⊕ (WorstCase × Analyzer) :=
  match pending : s.top.rest with
  | callee :: _ =>
    if active : callee ∈ s.onPath then
      .inl (s.settle pending (.recursion (cycle s.stack callee)))
    else match s.analyzer.memo[callee]? with
      | some answer => .inl (s.settle pending answer)
      | none => .inl (s.enter pending active)
  | [] =>
    match lower : s.below with
    | [] => .inr (s.top.close p, s.learnt)
    | _ :: _ => .inl (s.leave lower)

theorem length_functions_lt {onPath : Std.HashSet Name} {stack : List Frame} {fn : Name}
    (h : Sound scope onPath stack) (new : fn ∉ onPath) (known : fn ∈ scope) :
    stack.length < scope.length := by
  have bound : (fn :: functions stack).length ≤ scope.length :=
    List.Nodup.length_le_of_subset
      (List.nodup_cons.2 ⟨mt (h.mem_iff fn).2 new, h.nodup⟩)
      (List.cons_subset.2 ⟨known, h.within⟩)
  simp only [functions, List.length_cons, List.length_map] at bound
  omega

def remaining (s : Search p scope) : Nat := weight p scope.length s.stack

theorem cost_eq (room : Nat) (h : 0 < room) (fn : Name) :
    cost p room fn = 1 + pendingCost p (room - 1) (p.callees fn) := by
  cases room with
  | zero => omega
  | succ room => rfl

theorem pendingCost_cons (room : Nat) (c : Name) (rest : List Name) :
    pendingCost p room (c :: rest) = 1 + cost p room c + pendingCost p room rest := by
  simp [pendingCost]

theorem remaining_settle {s : Search p scope} {callee : Name} {rest : List Name}
    (pending : s.top.rest = callee :: rest) (answer : WorstCase) :
    (s.settle pending answer).remaining < s.remaining := by
  simp only [remaining, stack, weight, settle, Frame.offer, Frame.skipTo, pending, pendingCost_cons]
  omega

theorem remaining_enter {s : Search p scope} {callee : Name} {rest : List Name}
    (pending : s.top.rest = callee :: rest) (new : callee ∉ s.onPath) :
    (s.enter pending new).remaining < s.remaining := by
  have room := length_functions_lt s.sound new
    (s.sound.pending s.top (by simp) callee (by simp [pending]))
  simp only [List.length_cons] at room
  have opened : cost p _ callee = _ :=
    cost_eq (scope.length - (s.below.length + 1)) (by omega) callee
  have shift : scope.length - (s.below.length + 1) - 1 =
      scope.length - (s.below.length + 1 + 1) := by omega
  simp only [remaining, stack, weight, enter, Frame.open, Frame.skipTo, List.length_cons, pending,
    pendingCost_cons, opened, shift]
  omega

theorem remaining_leave {s : Search p scope} {parent : Frame} {below : List Frame}
    (lower : s.below = parent :: below) : (s.leave lower).remaining < s.remaining := by
  simp only [remaining, stack, weight, leave, Frame.offer, lower]
  omega

theorem remaining_lt {s t : Search p scope} (h : s.step = .inl t) : t.remaining < s.remaining := by
  unfold step at h
  split at h
  next callee rest pending =>
    split at h
    next => cases h; exact remaining_settle pending _
    next active =>
      split at h
      next => cases h; exact remaining_settle pending _
      next => cases h; exact remaining_enter pending active
  next =>
    split at h
    next => simp at h
    next lower => cases h; exact remaining_leave lower

def run (s : Search p scope) : WorstCase × Analyzer :=
  match taken : s.step with
  | .inl t =>
    have := remaining_lt taken
    t.run
  | .inr answer => answer
termination_by s.remaining

end Search

namespace Analyzer

def search (a : Analyzer) (p : Program) (start : Name) : Search p (start :: p.names) where
  analyzer := a.visit
  onPath := (∅ : Std.HashSet Name).insert start
  top := .open p start
  below := []
  closed _ h := List.mem_cons_of_mem _ h
  sound :=
    have none : Search.Sound (start :: p.names) ∅ [] :=
      ⟨List.nodup_nil, by simp [Search.functions], by simp [Search.functions], by simp⟩
    none.push (fun _ h => List.mem_cons_of_mem _ h) (by simp) (by simp)

/-- The worst case from a function, and the analyzer with what was learnt on the way. -/
def worstCase (a : Analyzer) (p : Program) (start : Name) : WorstCase × Analyzer :=
  match a.memo[start]? with
  | some answer => (answer, a)
  | none => (a.search p start).run

end Analyzer
end StackBound
