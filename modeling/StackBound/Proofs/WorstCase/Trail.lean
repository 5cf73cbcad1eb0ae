import StackBound.Proofs.Evaluation
import StackBound.Proofs.WorstCase.Cycle
import StackBound.Proofs.WorstCase.Overflow

/-! The functions that an answer names. Finite or not, its path is a call path from the start; only an
unbounded answer has a cycle, and the cycle runs along the path. Whatever a scenario comes to is the
answer for one of its entries, if any entry asks for stack. -/
namespace StackBound

open CallGraph (Graph)

namespace Program

variable {p : Program} {active : List Name} {fn : Name}

theorem callPath_worst (p : Program) (fn : Name) : CallPath p.Calls fn (p.worst [] fn).path := by
  cases kind : (p.worst [] fn).unbounded with
  | false => exact (total_worst kind).1
  | true => exact callPath_of_unbounded kind

/-- A finite answer has met no recursion on the way to its path. -/
theorem cycle_worst_of_finite (finite : (p.worst active fn).unbounded = false) :
    (p.worst active fn).cycle = [] := by
  refine finite_induction (motive := fun _ answer => answer.cycle = []) ?alone ?onward finite
  case alone => exact fun fn => rfl
  case onward =>
    intro fn callee answer call finite none
    rw [WorstCase.extend_of_finite finite]
    exact none

theorem closesOn_worst_nil (unbounded : (p.worst [] fn).unbounded = true) :
    (p.worst [] fn).path.Nodup ∧
      ClosesOn p.Calls (p.worst [] fn).path (p.worst [] fn).cycle := by
  obtain ⟨-, -, nodup, closes⟩ := closesOn_worst (.singleton fn) List.nodup_nil unbounded
  exact ⟨nodup, closes⟩

/-- Where nobody else calls anyone, the answer is the loop of the start. -/
theorem loop_worst_of_sole_caller (sole : ∀ {caller callee}, p.Calls caller callee → caller = fn)
    (unbounded : (p.worst [] fn).unbounded = true) :
    (p.worst [] fn).path = [fn] ∧ (p.worst [] fn).cycle = [fn, fn] := by
  obtain ⟨nodup, i, back, last, found, ends, call, cycle⟩ := closesOn_worst_nil unbounded
  obtain rfl := sole call
  have whole := (p.callPath_worst last).eq_single_of_getLast? nodup ends
  rw [whole] at found cycle
  cases i with
  | zero =>
    obtain rfl : last = back := by simpa using found
    exact ⟨whole, cycle⟩
  | succ i => simp at found

theorem isChain_cycle_worst (p : Program) (fn : Name) :
    (p.worst [] fn).cycle.IsChain p.Calls := by
  cases kind : (p.worst [] fn).unbounded with
  | false =>
    rw [cycle_worst_of_finite kind]
    exact .nil
  | true =>
    obtain ⟨nodup, closes⟩ := closesOn_worst_nil kind
    exact (closes.simpleCycle (p.callPath_worst fn).chain nodup).chain

theorem mem_path_of_mem_cycle {name : Name} (member : name ∈ (p.worst [] fn).cycle) :
    name ∈ (p.worst [] fn).path := by
  cases kind : (p.worst [] fn).unbounded with
  | false => simp [cycle_worst_of_finite kind] at member
  | true =>
    obtain ⟨-, i, back, last, found, -, -, cycle⟩ := closesOn_worst_nil kind
    rw [cycle] at member
    rcases List.mem_append.mp member with onward | closing
    · exact List.mem_of_mem_drop onward
    · rw [List.mem_singleton.mp closing]
      exact List.mem_of_getElem? found

end Program

theorem CallPath.called {calls : Name → Name → Prop} {start name : Name} {path : List Name}
    (h : CallPath calls start path) (member : name ∈ path) :
    name = start ∨ ∃ caller, calls caller name := by
  rcases (h.reaches member).cases_tail with same | ⟨caller, -, call⟩
  · exact .inl same
  · exact .inr ⟨caller, call⟩

namespace Scenario

/-- The result of a scenario is that of one of its entries, unless none asks for stack. -/
theorem result_evaluate_cases (g : Graph) (sizes : Name → Int64) (s : Scenario)
    (entries : List Name) :
    (s.evaluate g sizes entries).result = .zero ∨ ∃ entry ∈ entries,
      (s.evaluate g sizes entries).result = (s.program g sizes).worst [] entry := by
  rw [result_evaluate]
  rcases WorstCase.foldl_max_mem (entries.map ((s.program g sizes).worst [])) .zero with
    kept | found
  · exact .inl kept
  · obtain ⟨entry, member, same⟩ := List.mem_map.mp found
    exact .inr ⟨entry, member, same.symm⟩

end Scenario

/-- The overall result is that of some entry in some scenario, unless none asks for stack. -/
theorem Evaluation.result_overall_cases (g : Graph) (sizes : Name → Int64)
    (scenarios : List Scenario) (entries : List Name) :
    (of g sizes scenarios entries).overall.result = .zero ∨ ∃ s ∈ scenarios, ∃ entry ∈ entries,
      (of g sizes scenarios entries).overall.result = (s.program g sizes).worst [] entry := by
  rw [result_overall]
  rcases WorstCase.foldl_max_mem
    (scenarios.map fun s => (s.evaluate g sizes (Bytes.sortedSet entries)).result) .zero with
    kept | found
  · exact .inl kept
  · obtain ⟨s, listed, same⟩ := List.mem_map.mp found
    rw [← same]
    rcases s.result_evaluate_cases g sizes (Bytes.sortedSet entries) with
      none | ⟨entry, member, answer⟩
    · exact .inl none
    · exact .inr ⟨s, listed, entry, (Bytes.mem_sortedSet entries).mp member, answer⟩

end StackBound
