import Mathlib
import StackBound.Proofs.WorstCase.Steps

/-! The search as a bare loop. Its state is plain data, so nothing in the type keeps the stack from
running empty, and an iteration that finds no top has no result. Started as a search is, the loop never
gets there: each of its states is that of a search, so it returns what the search does, after no more
iterations than the search has steps. -/
namespace StackBound

open Relation (ReflTransGen)

/-- The state of the loop between two iterations. -/
structure Loop where
  analyzer : Analyzer
  onPath : Std.HashSet Name
  stack : List Search.Frame

namespace Loop

open Search (Frame)

abbrev Progress := Loop ⊕ (WorstCase × Analyzer)

/-- One iteration; there is none if it has to read the top of an empty stack. -/
def iterate (p : Program) (l : Loop) : Option Progress :=
  match l.stack with
  | [] => none
  | top :: below =>
    match top.rest with
    | callee :: rest =>
      if callee ∈ l.onPath then
        let answer := WorstCase.recursion (Search.cycle l.stack callee)
        some (.inl { l with stack := (top.skipTo rest).offer answer :: below })
      else match l.analyzer.memo[callee]? with
        | some answer => some (.inl { l with stack := (top.skipTo rest).offer answer :: below })
        | none =>
          some (.inl {
            analyzer := l.analyzer.visit
            onPath := l.onPath.insert callee
            stack := .open p callee :: top.skipTo rest :: below })
    | [] =>
      let answer := top.close p
      let learnt := l.analyzer.remember top.fn answer
      match below with
      | [] => some (.inr (answer, learnt))
      | parent :: below =>
        some (.inl {
          analyzer := learnt
          onPath := l.onPath.erase top.fn
          stack := parent.offer answer :: below })

def start (p : Program) (a : Analyzer) (fn : Name) : Progress :=
  match a.memo[fn]? with
  | some answer => .inr (answer, a)
  | none => .inl ⟨a.visit, (∅ : Std.HashSet Name).insert fn, [.open p fn]⟩

inductive Next (p : Program) : Progress → Progress → Prop
  | iterate {l : Loop} {out : Progress} (taken : l.iterate p = some out) : Next p (.inl l) out

inductive Returns (p : Program) : Progress → Nat → WorstCase × Analyzer → Prop
  | done (r : WorstCase × Analyzer) : Returns p (.inr r) 0 r
  | next {out later : Progress} {n : Nat} {r : WorstCase × Analyzer} (taken : Next p out later)
      (rest : Returns p later n r) : Returns p out (n + 1) r

def ofSearch {p : Program} {scope : List Name} (s : Search p scope) : Loop :=
  ⟨s.analyzer, s.onPath, s.stack⟩

variable {p : Program} {scope : List Name}

/-- An iteration does what a step of the search does. -/
theorem iterate_ofSearch (s : Search p scope) :
    (ofSearch s).iterate p = some (s.step.map ofSearch id) := by
  have taken := s.step_cases
  generalize s.step = out at taken ⊢
  cases taken with
  | recursion pending active => simp [iterate, ofSearch, Search.stack, pending, active, Search.settle]
  | recalled pending new known =>
    simp [iterate, ofSearch, Search.stack, pending, new, known, Search.settle]
  | entered pending new unknown =>
    simp [iterate, ofSearch, Search.stack, pending, new, unknown, Search.enter]
  | left done lower =>
    simp [iterate, ofSearch, Search.stack, done, lower, Search.leave, Search.learnt]
  | finished done bottom =>
    simp [iterate, ofSearch, Search.stack, done, bottom, Search.learnt]

theorem remaining_pos (s : Search p scope) : 0 < s.remaining := by
  simp only [Search.remaining, Search.stack, Search.weight]
  omega

/-- The loop returns what the run of the search gives. -/
theorem returns_run (s : Search p scope) :
    ∃ n ≤ s.remaining, Returns p (.inl (ofSearch s)) n s.run := by
  fun_induction Search.run s with
  | case1 s t taken smaller ih =>
    obtain ⟨n, within, rest⟩ := ih
    have step := iterate_ofSearch s
    rw [taken] at step
    exact ⟨n + 1, by omega, .next (.iterate step) rest⟩
  | case2 s r taken =>
    have step := iterate_ofSearch s
    rw [taken] at step
    exact ⟨1, remaining_pos s, .next (.iterate step) (.done r)⟩

/-- Whatever the loop comes to is a search under way, or its end. -/
theorem ofSearch_of_reached {s : Search p scope} {out : Progress}
    (reached : ReflTransGen (Next p) (.inl (ofSearch s)) out) :
    (∃ t : Search p scope, out = .inl (ofSearch t)) ∨ ∃ r, out = .inr r := by
  induction reached with
  | refl => exact .inl ⟨s, rfl⟩
  | tail _ last ih =>
    cases last with
    | iterate taken =>
      rcases ih with ⟨t, same⟩ | ⟨r, ended⟩
      · obtain rfl := Sum.inl.inj same
        rw [iterate_ofSearch, Option.some.injEq] at taken
        subst taken
        cases t.step with
        | inl t' => exact .inl ⟨t', rfl⟩
        | inr r => exact .inr ⟨r, rfl⟩
      · cases ended

/-- A search is started with the steps that exploring its function may take. -/
theorem remaining_search (a : Analyzer) (fn : Name) :
    (a.search p fn).remaining = Search.cost p (p.names.length + 1) fn := by
  simp [Search.remaining, Search.stack, Analyzer.search, Search.weight, Frame.open, Search.cost,
    Search.pendingCost]

end Loop

open CallGraph (Graph Overlay) in
/-- The loop ends: over any graph with calls assumed beside it, recursive or not, whatever the analyzer
remembers and whether or not the start is known, it returns after finitely many iterations, with the
answer of the search, and in none of the states it goes through is the stack empty. -/
theorem Analyzer.loop_returns (g : Graph) (overlay : Overlay) (sizes : Name → Int64) (a : Analyzer)
    (fn : Name) :
    let p := Program.ofGraph g overlay sizes
    (∃ n ≤ Search.cost p (p.names.length + 1) fn,
        Loop.Returns p (Loop.start p a fn) n (a.worstCase p fn)) ∧
      ∀ l, ReflTransGen (Loop.Next p) (Loop.start p a fn) (.inl l) → l.stack ≠ [] := by
  intro p
  cases known : a.memo[fn]? with
  | some answer =>
    have began : Loop.start p a fn = .inr (answer, a) := by simp [Loop.start, known]
    rw [began, Analyzer.worstCase_of_known known]
    refine ⟨⟨0, Nat.zero_le _, .done _⟩, fun l reached => ?_⟩
    rcases reached.cases_head with same | ⟨out, taken, -⟩
    · cases same
    · cases taken
  | none =>
    have began : Loop.start p a fn = .inl (.ofSearch (a.search p fn)) := by
      simp [Loop.start, known, Loop.ofSearch, Search.stack, Analyzer.search]
    rw [began, Analyzer.worstCase_of_unknown known, ← Loop.remaining_search a fn]
    refine ⟨Loop.returns_run _, fun l reached => ?_⟩
    rcases Loop.ofSearch_of_reached reached with ⟨t, same⟩ | ⟨r, ended⟩
    · obtain rfl := Sum.inl.inj same
      simp [Loop.ofSearch, Search.stack]
    · cases ended

end StackBound
