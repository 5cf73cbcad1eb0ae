import StackBound.Scenario
import StackBound.Proofs.Text.SortedSet
import StackBound.Proofs.WorstCase.Bound

/-! Scenarios evaluated over many entries. One analyzer serves all entries of a scenario, yet each
result is the one the recursion gives alone; the winner of a scenario, and the winner of all, are
running maxima of such results. -/
namespace StackBound

open CallGraph (Graph)

namespace Outcome

@[simp] theorem result_addEntry (o : Outcome) (entry : Name) (result : WorstCase) :
    (o.addEntry entry result).result = o.result.max result := by
  simp only [addEntry, WorstCase.max]
  split <;> rfl

@[simp] theorem result_max (best next : Outcome) :
    (best.max next).result = best.result.max next.result := by
  simp only [max, WorstCase.max]
  split <;> rfl

theorem result_foldl_addEntry (results : Name → WorstCase) (entries : List Name) (o : Outcome) :
    (entries.foldl (fun o entry => o.addEntry entry (results entry)) o).result =
      (entries.map results).foldl WorstCase.max o.result := by
  induction entries generalizing o with
  | nil => rfl
  | cons entry rest ih => rw [List.foldl_cons, ih, result_addEntry, List.map_cons, List.foldl_cons]

theorem result_foldl_max (outcomes : List Outcome) (best : Outcome) :
    (outcomes.foldl max best).result = (outcomes.map result).foldl WorstCase.max best.result := by
  induction outcomes generalizing best with
  | nil => rfl
  | cons next rest ih => rw [List.foldl_cons, ih, result_max, List.map_cons, List.foldl_cons]

end Outcome

namespace Scenario

variable (g : Graph) (sizes : Name → Int64) (s : Scenario) (entries : List Name)

/-- The analyzer shared by the entries of a scenario does not show: each entry has the result of
the recursion. -/
theorem evaluate_eq :
    s.evaluate g sizes entries = entries.foldl
      (fun o entry => o.addEntry entry ((s.program g sizes).worst [] entry))
      (.blank s.label s.additions.overlay.size) := by
  suffices shared : ∀ (o : Outcome) (a : Analyzer), a.Exact (s.program g sizes) →
      (entries.foldl (fun (state : Outcome × Analyzer) entry =>
        (state.1.addEntry entry (state.2.worstCase (s.program g sizes) entry).1,
          (state.2.worstCase (s.program g sizes) entry).2)) (o, a)).1 =
      entries.foldl (fun o entry => o.addEntry entry ((s.program g sizes).worst [] entry)) o from
    shared _ _ (Analyzer.exact_fresh _)
  induction entries with
  | nil => exact fun o a exact => rfl
  | cons entry rest ih =>
    intro o a exact
    obtain ⟨answer, kept⟩ := exact.worstCase entry
    rw [List.foldl_cons, List.foldl_cons, ← answer]
    exact ih _ _ kept

theorem result_evaluate :
    (s.evaluate g sizes entries).result =
      (entries.map ((s.program g sizes).worst [])).foldl WorstCase.max .zero := by
  rw [evaluate_eq, Outcome.result_foldl_addEntry]
  rfl

end Scenario

namespace Evaluation

variable (g : Graph) (sizes : Name → Int64) (scenarios : List Scenario) (entries : List Name)

theorem result_overall :
    (of g sizes scenarios entries).overall.result =
      (scenarios.map fun s => (s.evaluate g sizes (Bytes.sortedSet entries)).result).foldl
        WorstCase.max .zero := by
  simp only [of, Outcome.result_foldl_max, List.map_map]
  rfl

/-- The overall result stays within a bound exactly if that of every entry in every scenario does. -/
theorem level_overall_le {bound : WithTop Int} (nonneg : 0 ≤ bound) :
    (of g sizes scenarios entries).overall.result.level ≤ bound ↔
      ∀ s ∈ scenarios, ∀ entry ∈ entries, ((s.program g sizes).worst [] entry).level ≤ bound := by
  simp only [result_overall, Scenario.result_evaluate, WorstCase.level_foldl_max_le,
    WorstCase.level_zero, nonneg, true_and, List.forall_mem_map, Bytes.mem_sortedSet]

theorem unbounded_overall :
    (of g sizes scenarios entries).overall.result.unbounded = true ↔
      ∃ s ∈ scenarios, ∃ entry ∈ entries,
        ((s.program g sizes).worst [] entry).unbounded = true := by
  simp [result_overall, Scenario.result_evaluate, WorstCase.unbounded_foldl_max, WorstCase.zero,
    Bytes.mem_sortedSet]

end Evaluation
end StackBound
