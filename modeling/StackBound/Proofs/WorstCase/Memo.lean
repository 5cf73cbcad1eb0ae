import StackBound.Proofs.WorstCase.Bound
import StackBound.Proofs.WorstCase.Coverage

/-! What searches leave in the memo: the functions that are reached from a start and reach no cycle. Each
of them is expanded once, however many searches meet it, and a search under way keeps the books of that
together with what it owes to the recursion. -/
namespace StackBound

open CallGraph (Graph Overlay)
open Relation (ReflTransGen)

namespace Search

variable {p : Program} {scope : List Name}

/-- A search under way, with what was expanded before it and what it has expanded itself. -/
structure Surveys (earlier : Analyzer) (past : List Name) (start : Name) (log : List Name)
    (s : Search p scope) : Prop where
  faithful : Faithful start s
  tallies : s.analyzer.Tallies p (past ++ log) (functions s.stack)
  handled : Handled p s.analyzer [] s.stack
  kept : ∀ fn ∈ earlier.memo, fn ∈ s.analyzer.memo
  reached : ∀ fn ∈ log, ReflTransGen p.Calls start fn

namespace Surveys

variable {earlier : Analyzer} {past log rest : List Name} {start callee : Name} {s : Search p scope}

theorem settle (h : Surveys earlier past start log s) (pending : s.top.rest = callee :: rest)
    {answer : WorstCase} (agrees : answer = p.worst (explored s.stack) callee)
    (covers : s.analyzer.Covers p (explored s.stack) callee) :
    Surveys earlier past start log (s.settle pending answer) where
  faithful := h.faithful.settle pending agrees
  tallies := h.tallies
  handled := by
    rw [stack_settle]
    exact h.handled.skip pending rfl rfl (.inr covers)
  kept := h.kept
  reached := h.reached

theorem enter (h : Surveys earlier past start log s) (pending : s.top.rest = callee :: rest)
    (new : callee ∉ s.onPath) (unknown : s.analyzer.memo[callee]? = none) :
    Surveys earlier past start (log ++ [callee]) (s.enter pending new) where
  faithful := h.faithful.enter pending new
  tallies := by
    have outside : callee ∉ functions s.stack := mt (s.sound.mem_iff callee).mpr new
    have missing : callee ∉ s.analyzer.memo := by simpa using unknown
    rw [← List.append_assoc]
    exact h.tallies.visit missing outside
  handled := by
    have handled : Handled p s.analyzer.visit [] s.stack := h.handled.mono fun _ known => known
    rw [stack_enter]
    exact ⟨fun _ call => .inl call, handled.skip pending rfl rfl (.inl (by simp))⟩
  kept := h.kept
  reached := by
    intro fn member
    rcases List.mem_append.mp member with earlier | last
    · exact h.reached fn earlier
    · obtain rfl := List.mem_singleton.mp last
      exact (h.faithful.path_snoc pending).reaches (by simp)

/-- The callees of a function that is done are covered. -/
theorem covers_callee (h : Surveys earlier past start log s) (done : s.top.rest = [])
    (call : p.Calls s.top.fn callee) : s.analyzer.Covers p (explored s.stack) callee := by
  rcases h.handled.1 callee call with waiting | next | covered
  · simp [done] at waiting
  · cases next
  · exact covered

theorem finite_close (h : Surveys earlier past start log s) (done : s.top.rest = [])
    (acyclic : ¬ ReachesCycle p.Calls s.top.fn) : (s.top.close p).unbounded = false := by
  rw [h.faithful.close_eq done, Program.worst_eq_of_acyclic h.faithful.chain acyclic]
  exact Program.finite_worst acyclic

/-- The callees of a function that is done and finite are remembered: none of them is on the stack, for
that would be a cycle. -/
theorem mem_of_finite (h : Surveys earlier past start log s) (done : s.top.rest = [])
    (finite : (s.top.close p).unbounded = false) (call : p.Calls s.top.fn callee) :
    callee ∈ s.analyzer.memo := by
  rw [h.faithful.close_eq done] at finite
  have acyclic := Program.not_reachesCycle_of_finite finite
  have outside : callee ∉ explored s.stack := by
    intro inside
    rw [explored_stack] at inside
    have cycle := transGen_of_isChain (isChain_snoc h.faithful.chain call) inside
    exact acyclic ⟨callee, .single call, cycle⟩
  exact h.covers_callee done call callee (.refl outside) fun cyclic =>
    acyclic (.of_call call cyclic)

theorem learnt (h : Surveys earlier past start log s) (done : s.top.rest = []) :
    s.learnt.Tallies p (past ++ log) (functions s.below) := by
  refine h.tallies.remember (h.faithful.learnt done) (h.finite_close done) ?_
  exact fun finite callee call => h.mem_of_finite done finite call

theorem covers_top (h : Surveys earlier past start log s) (done : s.top.rest = []) :
    s.learnt.Covers p (explored s.below) s.top.fn := by
  intro target way acyclic
  rw [Search.learnt, Analyzer.mem_remember]
  by_cases same : target = s.top.fn
  · subst same
    exact .inr ⟨h.finite_close done acyclic, rfl⟩
  · obtain ⟨callee, call, onward⟩ := way.exists_call same
    rw [← explored_stack] at onward
    exact .inl (h.covers_callee done call target onward acyclic)

theorem grown (fn : Name) (known : fn ∈ s.analyzer.memo) : fn ∈ s.learnt.memo :=
  Analyzer.mem_remember.mpr (.inl known)

theorem leave (h : Surveys earlier past start log s) (done : s.top.rest = []) {parent : Frame}
    {below : List Frame} (lower : s.below = parent :: below) :
    Surveys earlier past start log (s.leave lower) where
  faithful := h.faithful.leave done lower
  tallies := by
    have tallies := h.learnt done
    rw [lower] at tallies
    exact tallies
  handled := by
    have handled := h.handled.2.mono grown
    have covers := h.covers_top done
    rw [lower] at handled covers
    rw [stack_leave]
    refine handled.change rfl fun callee left => ?_
    rcases left with waiting | next
    · exact .inl waiting
    · obtain rfl := List.mem_singleton.mp next
      exact .inr (.inr covers)
  kept := fun fn known => grown fn (h.kept fn known)
  reached := h.reached

theorem step {t : Search p scope} (h : Surveys earlier past start log s)
    (taken : Step s (.inl t)) : Surveys earlier past start (log ++ opened s t) t := by
  cases taken with
  | recursion pending active =>
    rw [opened_settle, List.append_nil]
    refine h.settle pending (recursion_eq_worst s active) fun target way => ?_
    exact absurd (mem_explored.mpr ((s.sound.mem_iff _).mp active)) way.1
  | recalled pending new known =>
    rw [opened_settle, List.append_nil]
    exact h.settle pending (h.faithful.recalled_eq pending known)
      (h.tallies.closed.covers (Analyzer.mem_of_found known))
  | entered pending new unknown =>
    rw [opened_enter]
    exact h.enter pending new unknown
  | left done lower =>
    rw [opened_leave, List.append_nil]
    exact h.leave done lower

theorem result {r : WorstCase × Analyzer} (h : Surveys earlier past start log s)
    (taken : Step s (.inr r)) :
    r.2.Tallies p (past ++ log) [] ∧ r.2.Covers p [] start ∧
      (∀ fn ∈ earlier.memo, fn ∈ r.2.memo) ∧ ∀ fn ∈ log, ReflTransGen p.Calls start fn := by
  cases taken with
  | finished done bottom =>
    have tallies := h.learnt done
    have covers := h.covers_top done
    rw [bottom] at tallies covers
    rw [h.faithful.fn_bottom bottom] at covers
    exact ⟨tallies, covers, fun fn known => grown fn (h.kept fn known), h.reached⟩

end Surveys
end Search

namespace Analyzer

/-- The functions that a search from a function expands. -/
def expanded (a : Analyzer) (p : Program) (start : Name) : List Name :=
  match a.memo[start]? with
  | some _ => []
  | none => start :: (a.search p start).expansions

def expandedBy (p : Program) (a : Analyzer) : List Name → List Name
  | [] => []
  | start :: rest => a.expanded p start ++ expandedBy p (a.worstCase p start).2 rest

/-- An analyzer after searches from the given functions, with all they have expanded. -/
structure Surveyed (p : Program) (starts log : List Name) (a : Analyzer) : Prop where
  tallies : a.Tallies p log []
  covered : ∀ start ∈ starts, a.Covers p [] start
  reached : ∀ fn ∈ log, ∃ start ∈ starts, ReflTransGen p.Calls start fn

theorem surveyed_fresh (p : Program) : fresh.Surveyed p [] [] where
  tallies := ⟨exact_fresh p, by simp [Closed, fresh], rfl, by simp [fresh]⟩
  covered := by simp
  reached := by simp

namespace Surveyed

variable {p : Program} {starts log : List Name} {a : Analyzer} {fn : Name}

theorem surveys_search {start : Name} (h : a.Surveyed p starts log)
    (unknown : a.memo[start]? = none) : Search.Surveys a log start [start] (a.search p start) where
  faithful := faithful_search h.tallies.exact start
  tallies := h.tallies.visit (by simpa using unknown) List.not_mem_nil
  handled := ⟨fun _ call => .inl call, trivial⟩
  kept := fun _ known => known
  reached := by simp [ReflTransGen.refl]

theorem extend {b : Analyzer} {start : Name} {new : List Name} (h : a.Surveyed p starts log)
    (tallies : b.Tallies p (log ++ new) []) (covers : b.Covers p [] start)
    (kept : ∀ fn ∈ a.memo, fn ∈ b.memo) (reached : ∀ fn ∈ new, ReflTransGen p.Calls start fn) :
    b.Surveyed p (starts ++ [start]) (log ++ new) where
  tallies := tallies
  covered := by
    intro begun listed
    rcases List.mem_append.mp listed with earlier | last
    · exact (h.covered begun earlier).mono kept
    · obtain rfl := List.mem_singleton.mp last
      exact covers
  reached := by
    intro fn logged
    rcases List.mem_append.mp logged with earlier | last
    · obtain ⟨begun, listed, way⟩ := h.reached fn earlier
      exact ⟨begun, List.mem_append_left _ listed, way⟩
    · exact ⟨start, List.mem_append_right _ (by simp), reached fn last⟩

theorem worstCase (h : a.Surveyed p starts log) (start : Name) :
    (a.worstCase p start).2.Surveyed p (starts ++ [start]) (log ++ a.expanded p start) := by
  cases found : a.memo[start]? with
  | some answer =>
    have known : start ∈ a.memo := mem_of_found found
    rw [worstCase_of_known found, expanded, found]
    exact h.extend (by simpa using h.tallies) (h.tallies.closed.covers known)
      (fun _ known => known) (by simp)
  | none =>
    rw [worstCase_of_unknown found, expanded, found]
    obtain ⟨tallies, covers, kept, reached⟩ := Search.run_of_expansions
      (Search.Surveys a log start)
      (fun new r => r.2.Tallies p (log ++ new) [] ∧ r.2.Covers p [] start ∧
        (∀ fn ∈ a.memo, fn ∈ r.2.memo) ∧ ∀ fn ∈ new, ReflTransGen p.Calls start fn)
      .step Search.Surveys.result (h.surveys_search found)
    exact h.extend tallies covers kept reached

theorem history (h : a.Surveyed p starts log) (history : List Name) :
    (history.foldl (fun a start => (a.worstCase p start).2) a).Surveyed p (starts ++ history)
      (log ++ expandedBy p a history) := by
  induction history generalizing a starts log with
  | nil => simpa [expandedBy] using h
  | cons start rest ih => simpa [expandedBy] using ih (h.worstCase start)

theorem mem_memo_iff (h : a.Surveyed p starts log) :
    fn ∈ a.memo ↔
      (∃ start ∈ starts, ReflTransGen p.Calls start fn) ∧ ¬ ReachesCycle p.Calls fn := by
  constructor
  · intro known
    have once := h.tallies.count_of_mem known
    exact ⟨h.reached fn (List.count_pos_iff.mp (by omega)), h.tallies.not_reachesCycle known⟩
  · rintro ⟨⟨start, listed, way⟩, acyclic⟩
    exact h.covered start listed fn (.of_reaches way) acyclic

/-- Where no start reaches a cycle, what was expanded is what is remembered, and nothing twice. -/
theorem perm_keys (h : a.Surveyed p starts log)
    (acyclic : ∀ start ∈ starts, ¬ ReachesCycle p.Calls start) : log.Perm a.memo.keys := by
  have within {fn : Name} (logged : fn ∈ log) : ¬ ReachesCycle p.Calls fn := by
    obtain ⟨start, listed, way⟩ := h.reached fn logged
    exact fun cyclic => acyclic start listed (cyclic.of_reaches way)
  have nodup : log.Nodup := by
    rw [List.nodup_iff_count_le_one]
    intro fn
    by_cases logged : fn ∈ log
    · rw [h.tallies.counted fn (within logged)]
      split <;> omega
    · rw [List.count_eq_zero.mpr logged]
      omega
  refine (List.perm_ext_iff_of_nodup nodup Std.HashMap.nodup_keys).mpr fun fn => ?_
  rw [Std.HashMap.mem_keys, h.mem_memo_iff]
  constructor
  · exact fun logged => ⟨h.reached fn logged, within logged⟩
  · intro known
    have once := h.tallies.count_of_mem (h.mem_memo_iff.mpr known)
    exact List.count_pos_iff.mp (by omega)

end Surveyed

theorem surveyed_after (p : Program) (history : List Name) :
    (after p history).Surveyed p history (expandedBy p fresh history) := by
  simpa [after] using (surveyed_fresh p).history history

/-- The memo is exact after any searches, over the calls of a graph and the assumed ones. It holds the
functions that are reached from a start and reach no cycle, and those only, each with a finite answer.
Each of them was expanded once in all the searches together; and where no start reaches a cycle, as many
functions were expanded as are remembered, which is as many as are reached. -/
theorem memo_after (g : Graph) (overlay : Overlay) (sizes : Name → Int64) (history : List Name) :
    let p := Program.ofGraph g overlay sizes
    let a := after p history
    let reached := {fn | ∃ start ∈ history, ReflTransGen (overlay.Calls g) start fn}
    (∀ fn, fn ∈ a.memo ↔ fn ∈ reached ∧ ¬ ReachesCycle (overlay.Calls g) fn) ∧
      (∀ (fn : Name) (answer : WorstCase), a.memo[fn]? = some answer → answer.unbounded = false) ∧
      a.visits = (expandedBy p fresh history).length ∧
      (∀ fn ∈ a.memo, (expandedBy p fresh history).count fn = 1) ∧
      ((∀ start ∈ history, ¬ ReachesCycle (overlay.Calls g) start) →
        a.visits = a.memoized ∧ a.memoized = reached.ncard) := by
  intro p a reached
  have calls : p.Calls = overlay.Calls g := Program.calls_ofGraph g overlay sizes
  have surveyed : a.Surveyed p history (expandedBy p fresh history) := surveyed_after p history
  have member (fn : Name) : fn ∈ a.memo ↔ fn ∈ reached ∧ ¬ ReachesCycle (overlay.Calls g) fn := by
    rw [surveyed.mem_memo_iff, calls]
    rfl
  refine ⟨member, fun fn answer found => (surveyed.tallies.exact fn answer found).2,
    surveyed.tallies.visits, fun fn known => surveyed.tallies.count_of_mem known, fun acyclic => ?_⟩
  have whole : reached = a.memo.keys.toFinset := by
    ext fn
    rw [Finset.mem_coe, List.mem_toFinset, Std.HashMap.mem_keys, member, and_iff_left_of_imp]
    rintro ⟨start, listed, way⟩ cyclic
    exact acyclic start listed (cyclic.of_reaches way)
  have perm := surveyed.perm_keys (by rwa [calls])
  constructor
  · rw [surveyed.tallies.visits, perm.length_eq, Std.HashMap.length_keys, memoized]
  · rw [whole, Set.ncard_coe_finset, List.toFinset_card_of_nodup Std.HashMap.nodup_keys,
      Std.HashMap.length_keys, memoized]

/-- A function that two starts call is expanded once for both. -/
theorem memo_after_shared :
    let g := Graph.ofEdges [⟨[1], [3]⟩, ⟨[2], [3]⟩]
    let a := after (.ofGraph g .empty fun _ => 8) [[1], [2]]
    (∀ start ∈ [[1], [2]], ¬ ReachesCycle (Overlay.empty.Calls g) start) ∧ a.visits = 3 ∧
      a.memoized = 3 := by
  intro g a
  have calls {fn callee : Name} : Overlay.empty.Calls g fn callee ↔
      (fn = [1] ∨ fn = [2]) ∧ callee = [3] := by
    rw [Overlay.calls_empty_ofEdges]
    constructor
    · rintro ⟨member, -⟩
      simpa [or_and_right] using member
    · rintro ⟨rfl | rfl, rfl⟩ <;> simp
  have acyclic (start : Name) : ¬ ReachesCycle (Overlay.empty.Calls g) start := by
    refine ReachesCycle.not_of_rank (fun fn => (fn.map UInt8.toNat).sum) (fun call => ?_) start
    obtain ⟨rfl | rfl, rfl⟩ := calls.mp call <;> decide
  have reached : {fn | ∃ start ∈ [[1], [2]], ReflTransGen (Overlay.empty.Calls g) start fn} =
      (([[1], [2], [3]] : List Name).toFinset : Set Name) := by
    ext fn
    simp only [Set.mem_ofPred_eq, List.coe_toFinset]
    constructor
    · rintro ⟨start, listed, way⟩
      rcases way.cases_tail with rfl | ⟨caller, -, call⟩
      · rcases List.mem_cons.mp listed with rfl | listed
        · simp
        · simp [List.mem_singleton.mp listed]
      · simp [(calls.mp call).2]
    · intro listed
      rcases (by simpa using listed : fn = [1] ∨ fn = [2] ∨ fn = [3]) with rfl | rfl | rfl
      · exact ⟨[1], by simp, .refl⟩
      · exact ⟨[2], by simp, .refl⟩
      · exact ⟨[1], by simp, .single (calls.mpr (by simp))⟩
  obtain ⟨-, -, -, -, counts⟩ := memo_after g .empty (fun _ => 8) [[1], [2]]
  obtain ⟨expanded, remembered⟩ := counts fun start _ => acyclic start
  rw [reached, Set.ncard_coe_finset] at remembered
  exact ⟨fun start _ => acyclic start, expanded.trans remembered, remembered⟩

end Analyzer
end StackBound
