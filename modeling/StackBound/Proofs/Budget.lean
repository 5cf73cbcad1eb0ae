import StackBound.Budget
import StackBound.Proofs.Evaluation
import StackBound.Proofs.StackUsage.Charge

/-! The limit on the stack holds a run back exactly if some call path, in some scenario and from some
entry, can exceed it. -/
namespace StackBound

open CallGraph (Graph Overlay)
open StackUsage (Table)

namespace Budget

theorem check_eq_ok_iff {limit : Int64} (positive : 0 < limit) (worst : Outcome) :
    check limit worst = .ok () ↔ worst.result.level ≤ (limit.toInt : WithTop Int) := by
  have limited : ¬ limit ≤ 0 := Int64.not_le.mpr positive
  rw [check, overrun?, if_neg limited, WorstCase.level_le_coe]
  by_cases broken : (worst.result.unbounded || limit < worst.result.total) = true
  · rw [if_pos broken]
    rw [Bool.or_eq_true, decide_eq_true_eq, Int64.lt_iff_toInt_lt] at broken
    simp only [reduceCtorEq, false_iff]
    rintro ⟨finite, within⟩
    rcases broken with unbounded | above
    · simp [finite] at unbounded
    · omega
  · rw [if_neg broken]
    rw [Bool.or_eq_true, decide_eq_true_eq, not_or, Int64.lt_iff_toInt_lt, not_lt,
      Bool.not_eq_true] at broken
    exact iff_of_true rfl broken

/-- A worst case that breaks the limit is reported as it is. -/
theorem eq_of_overrun? {limit : Int64} {worst : Outcome} {overrun : Overrun}
    (found : overrun? limit worst = some overrun) :
    overrun = ⟨limit, worst.result.total, worst.result.unbounded, worst.label⟩ := by
  unfold overrun? at found
  split at found
  · cases found
  · split at found
    · exact (Option.some.inj found).symm
    · cases found

theorem check_eq_error {limit : Int64} {worst : Outcome} (broken : check limit worst ≠ .ok ()) :
    check limit worst = .error (.overBudget
      ⟨limit, worst.result.total, worst.result.unbounded, worst.label⟩) := by
  cases found : overrun? limit worst with
  | none => exact absurd (by rw [check, found]) broken
  | some overrun => rw [check, found, eq_of_overrun? found]

/-- The limit is checked exactly from end to end. A run passes if and only if in every scenario no
entry reaches a cycle and no call path from it takes more than the limit; otherwise it fails over
the limit, as unbounded exactly if some entry reaches a cycle in some scenario. -/
theorem check_run (g : Graph) (table : Table) (scenarios : List Scenario) (entries : List Name)
    (limit : Int64) (positive : 0 < limit)
    (fits : ∀ s ∈ scenarios, ∀ entry ∈ entries, ∀ path,
      CallPath (s.additions.overlay.Calls g) entry path → path.Nodup →
        stackUse table.frameSize path < 2 ^ 63) :
    ∃ e, Evaluation.run false g table.frameSize scenarios entries = .ok e ∧
      (check limit e.overall = .ok () ↔ ∀ s ∈ scenarios, ∀ entry ∈ entries,
        ¬ ReachesCycle (s.additions.overlay.Calls g) entry ∧
          ∀ path, CallPath (s.additions.overlay.Calls g) entry path →
            stackUse table.frameSize path ≤ limit.toInt) ∧
      (check limit e.overall ≠ .ok () → ∃ overrun,
        check limit e.overall = .error (.overBudget overrun) ∧
        (overrun.unbounded = true ↔ ∃ s ∈ scenarios, ∃ entry ∈ entries,
          ReachesCycle (s.additions.overlay.Calls g) entry)) := by
  have calls (s : Scenario) :
      (s.program g table.frameSize).Calls = s.additions.overlay.Calls g :=
    Program.calls_ofGraph g s.additions.overlay table.frameSize
  refine ⟨Evaluation.of g table.frameSize scenarios entries, rfl, ?_, ?_⟩
  · have whole : 0 < limit.toInt := by simpa [Int64.lt_iff_toInt_lt] using positive
    rw [check_eq_ok_iff positive,
      Evaluation.level_overall_le _ _ _ _ (WithTop.coe_nonneg.mpr whole.le)]
    refine forall₂_congr fun s inside => forall₂_congr fun entry member => ?_
    have nonneg (fn : Name) : 0 ≤ (table.frameSize fn).toInt :=
      Int64.le_iff_toInt_le.mp (table.frameSize_nonneg fn)
    have simple := fits s inside entry member
    rw [← calls] at simple ⊢
    exact Program.level_worst_le (p := s.program g table.frameSize) nonneg simple limit.toInt
  · intro broken
    refine ⟨_, check_eq_error broken, ?_⟩
    simp only [Evaluation.unbounded_overall, Program.unbounded_worst_iff, calls]

/-- A callback that calls its caller: bounded as the graph is, unbounded once the call is assumed. -/
theorem check_run_callback :
    let g := Graph.ofEdges [⟨[1], [2]⟩]
    let table := Table.empty.merge [⟨[1], 16⟩, ⟨[2], 8⟩]
    let callback : Scenario := ⟨[3], [], .ofList [⟨[2], [1]⟩]⟩
    (0 : Int64) < 64 ∧
      (∀ s ∈ [Scenario.base, callback], ∀ entry ∈ [[1]], ∀ path,
        CallPath (s.additions.overlay.Calls g) entry path → path.Nodup →
          stackUse table.frameSize path < 2 ^ 63) ∧
      ∃ e, Evaluation.run false g table.frameSize [Scenario.base, callback] [[1]] = .ok e ∧
        ∃ overrun, check 64 e.overall = .error (.overBudget overrun) ∧
          overrun.unbounded = true := by
  intro g table callback
  have pairs : callback.additions.toList = [⟨[2], [1]⟩] := by cbv
  have calls {s : Scenario} (listed : s ∈ [Scenario.base, callback]) {fn callee : Name}
      (call : s.additions.overlay.Calls g fn callee) :
      fn = [1] ∧ callee = [2] ∨ fn = [2] ∧ callee = [1] := by
    rcases (Overlay.calls_ofEdges _ _ _ _).mp call with ⟨member, -⟩ | member
    · exact .inl (by simpa using member)
    · rcases List.mem_cons.mp listed with rfl | listed
      · simp [Scenario.base, Annotations.empty, Annotations.toList] at member
      · rw [List.mem_singleton.mp listed, pairs] at member
        exact .inr (by simpa using member)
  have simple {s : Scenario} (listed : s ∈ [Scenario.base, callback]) {path : List Name}
      (h : CallPath (s.additions.overlay.Calls g) [1] path) (nodup : path.Nodup) :
      path = [[1]] ∨ path = [[1], [2]] := by
    rcases h.eq_or_cons with rfl | ⟨callee, rest, call, rfl, onward⟩
    · exact .inl rfl
    obtain rfl : callee = [2] := by simpa using calls listed call
    rcases onward.eq_or_cons with rfl | ⟨callee, rest, call, rfl, back⟩
    · exact .inr rfl
    obtain rfl : callee = [1] := by simpa using calls listed call
    have again : [1] ∈ rest := List.mem_of_mem_head? back.head
    simp [again] at nodup
  have first : table.frameSize [1] = 16 :=
    Table.frameSize_merge_of_unique (by simp) (by decide) (by decide) (by simp)
  have second : table.frameSize [2] = 8 :=
    Table.frameSize_merge_of_unique (by simp) (by decide) (by decide) (by simp)
  have fits : ∀ s ∈ [Scenario.base, callback], ∀ entry ∈ [[1]], ∀ path,
      CallPath (s.additions.overlay.Calls g) entry path → path.Nodup →
        stackUse table.frameSize path < 2 ^ 63 := by
    intro s listed entry member path h nodup
    obtain rfl := List.mem_singleton.mp member
    rcases simple listed h nodup with rfl | rfl
    · rw [stackUse_cons, first]
      decide
    · rw [stackUse_cons, stackUse_cons, first, second]
      decide
  have cyclic : ReachesCycle (callback.additions.overlay.Calls g) [1] := by
    have there : callback.additions.overlay.Calls g [1] [2] :=
      (Overlay.calls_ofEdges _ _ _ _).mpr (by simp)
    have back : callback.additions.overlay.Calls g [2] [1] :=
      (Overlay.calls_ofEdges _ _ _ _).mpr (by simp [pairs])
    exact ⟨[1], .refl, .head there (.single back)⟩
  obtain ⟨e, ran, passes, fails⟩ :=
    check_run g table [.base, callback] [[1]] 64 (by decide) fits
  have broken : check 64 e.overall ≠ .ok () := fun passed =>
    (passes.mp passed callback (by simp) [1] (by simp)).1 cyclic
  obtain ⟨overrun, failed, unbounded⟩ := fails broken
  exact ⟨by decide, fits, e, ran, overrun, failed,
    unbounded.mpr ⟨callback, by simp, [1], by simp, cyclic⟩⟩

end Budget
end StackBound
