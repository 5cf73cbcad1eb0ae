import StackBound.Proofs.Evaluation

/-! Scenarios do not see each other, and entries do not see each other. Each outcome is what a fresh
analyzer finds from each entry alone, and among equally bad entries or scenarios the first one is
named. So an evaluation depends on which entries there are, not on how they are listed, and an outcome
depends on its own scenario only. -/
namespace StackBound

open CallGraph (Graph)

/-! ### The first of the worst -/

/-- The first of the members of a list whose results ask for the most stack. -/
def FirstWorst (result : α → WorstCase) (items : List α) (worst : α) : Prop :=
  ∃ before after, items = before ++ worst :: after ∧
    (∀ x ∈ before, (result x).level < (result worst).level) ∧
    ∀ x ∈ after, (result x).level ≤ (result worst).level

def worse (result : α → WorstCase) (best next : α) : α :=
  if (result next).greater (result best) then next else best

namespace FirstWorst

variable {result : α → WorstCase} {items : List α} {worst x : α}

theorem cons_of_lt (h : FirstWorst result items worst)
    (below : (result x).level < (result worst).level) : FirstWorst result (x :: items) worst := by
  obtain ⟨before, after, rfl, smaller, others⟩ := h
  exact ⟨x :: before, after, rfl, List.forall_mem_cons.mpr ⟨below, smaller⟩, others⟩

theorem cons_self (others : ∀ y ∈ items, (result y).level ≤ (result x).level) :
    FirstWorst result (x :: items) x :=
  ⟨[], items, rfl, by simp, others⟩

end FirstWorst

/-- A running choice of the worse ends with the first of the worst, unless nothing is above what it
started with. -/
theorem foldl_worse (result : α → WorstCase) (items : List α) (start : α) :
    items.foldl (worse result) start = start ∧
        (∀ x ∈ items, (result x).level ≤ (result start).level) ∨
      (result start).level < (result (items.foldl (worse result) start)).level ∧
        FirstWorst result items (items.foldl (worse result) start) := by
  induction items generalizing start with
  | nil => exact .inl ⟨rfl, by simp⟩
  | cons x rest ih =>
    rw [List.foldl_cons, worse]
    split
    next above =>
      rw [WorstCase.greater_iff] at above
      rcases ih x with ⟨kept, others⟩ | ⟨higher, first⟩
      · rw [kept]
        exact .inr ⟨above, .cons_self others⟩
      · exact .inr ⟨above.trans higher, first.cons_of_lt higher⟩
    next within =>
      rw [WorstCase.greater_iff, not_lt] at within
      rcases ih start with ⟨kept, others⟩ | ⟨higher, first⟩
      · exact .inl ⟨kept, List.forall_mem_cons.mpr ⟨within, others⟩⟩
      · exact .inr ⟨higher, first.cons_of_lt (within.trans_lt higher)⟩

/-! ### One scenario -/

namespace Outcome

def winner (o : Outcome) : EntryResult := ⟨o.entry, o.result⟩

theorem winner_addEntry (o : Outcome) (entry : Name) (result : WorstCase) :
    (o.addEntry entry result).winner = worse (·.result) o.winner ⟨entry, result⟩ := by
  by_cases above : result.greater o.result = true <;> simp [addEntry, worse, winner, above]

@[simp] theorem entries_addEntry (o : Outcome) (entry : Name) (result : WorstCase) :
    (o.addEntry entry result).entries = o.entries ++ [⟨entry, result⟩] := by
  simp only [addEntry]
  split <;> rfl

@[simp] theorem label_addEntry (o : Outcome) (entry : Name) (result : WorstCase) :
    (o.addEntry entry result).label = o.label := by
  simp only [addEntry]
  split <;> rfl

@[simp] theorem edges_addEntry (o : Outcome) (entry : Name) (result : WorstCase) :
    (o.addEntry entry result).edges = o.edges := by
  simp only [addEntry]
  split <;> rfl

/-- What taking in entries one after the other comes to. -/
theorem foldl_addEntry (results : Name → WorstCase) (entries : List Name) (o : Outcome) :
    let added := entries.map fun entry => (⟨entry, results entry⟩ : EntryResult)
    let final := entries.foldl (fun o entry => o.addEntry entry (results entry)) o
    final.label = o.label ∧ final.edges = o.edges ∧ final.entries = o.entries ++ added ∧
      final.winner = added.foldl (worse (·.result)) o.winner := by
  induction entries generalizing o with
  | nil => simp
  | cons entry rest ih =>
    obtain ⟨label, edges, entries, winner⟩ := ih (o.addEntry entry (results entry))
    rw [label_addEntry] at label
    rw [edges_addEntry] at edges
    rw [entries_addEntry, List.append_assoc] at entries
    rw [winner_addEntry] at winner
    exact ⟨label, edges, entries, winner⟩

/-- What an outcome has to say about a scenario: each entry once, in ascending order, with the result
of a fresh analyzer over the graph and the calls assumed by this scenario alone; and of these the
first of the worst, if any asks for stack at all. -/
structure Tells (g : Graph) (sizes : Name → Int64) (entries : List Name) (s : Scenario)
    (o : Outcome) : Prop where
  label : o.label = s.label
  edges : o.edges = s.additions.overlay.size
  ascending : (o.entries.map (·.entry)).Pairwise (· < ·)
  complete : ∀ name, name ∈ o.entries.map (·.entry) ↔ name ∈ entries
  alone : ∀ r ∈ o.entries, r.result =
    (Analyzer.fresh.worstCase (.ofGraph g s.additions.overlay sizes) r.entry).1
  worst : (o.entry = [] ∧ o.result = .zero ∧ ∀ r ∈ o.entries, r.result.level ≤ 0) ∨
    0 < o.result.level ∧ FirstWorst (·.result) o.entries ⟨o.entry, o.result⟩

end Outcome

namespace Scenario

theorem tells_evaluate (g : Graph) (sizes : Name → Int64) (entries : List Name) (s : Scenario) :
    (s.evaluate g sizes (Bytes.sortedSet entries)).Tells g sizes entries s := by
  obtain ⟨label, edges, listed, winner⟩ := Outcome.foldl_addEntry
    ((s.program g sizes).worst []) (Bytes.sortedSet entries)
    (.blank s.label s.additions.overlay.size)
  rw [← evaluate_eq] at label edges listed winner
  rw [show (Outcome.blank s.label s.additions.overlay.size).entries = [] from rfl,
    List.nil_append] at listed
  have names : (s.evaluate g sizes (Bytes.sortedSet entries)).entries.map (·.entry) =
      Bytes.sortedSet entries := by
    rw [listed, List.map_map]
    exact List.map_id _
  refine ⟨label, edges, ?_, fun name => ?_, fun r member => ?_, ?_⟩
  · rw [names]
    exact Bytes.pairwise_sortedSet entries
  · rw [names, Bytes.mem_sortedSet]
  · -- The entries share one memo, but what it holds is exact, so a fresh one gives the same.
    rw [listed] at member
    obtain ⟨entry, -, rfl⟩ := List.mem_map.mp member
    exact ((Analyzer.exact_fresh (s.program g sizes)).worstCase entry).1.symm
  · rw [← listed] at winner
    have first := foldl_worse EntryResult.result
      (s.evaluate g sizes (Bytes.sortedSet entries)).entries
      (Outcome.blank s.label s.additions.overlay.size).winner
    rw [← winner] at first
    rcases first with ⟨kept, others⟩ | first
    · rw [Outcome.winner, EntryResult.mk.injEq] at kept
      exact .inl ⟨kept.1, kept.2, others⟩
    · exact .inr first

end Scenario

namespace Evaluation

/-- A live run looks at every scenario on its own, in order, from each entry once, and names the first
of the worst. The order and the repetition of entries do not show, and the outcome of a scenario is
the same whatever other scenarios stand beside it. -/
theorem run_isolated (g : Graph) (sizes : Name → Int64) (scenarios : List Scenario)
    (entries : List Name) :
    ∃ e, run false g sizes scenarios entries = .ok e ∧
      List.Forall₂ (fun s o => o.Tells g sizes entries s) scenarios e.outcomes ∧
      (e.overall = ⟨utf8 "None (Base)", [], .zero, [], 0⟩ ∧
          (∀ o ∈ e.outcomes, o.result.level ≤ 0) ∨
        0 < e.overall.result.level ∧ FirstWorst (·.result) e.outcomes e.overall) ∧
      (∀ others : List Name, (∀ name, name ∈ others ↔ name ∈ entries) →
        run false g sizes scenarios others = .ok e) ∧
      ∀ (others : List Scenario) (s : Scenario) (i j : Nat),
        scenarios[i]? = some s → others[j]? = some s →
          ∃ e', run false g sizes others entries = .ok e' ∧ e'.outcomes[j]? = e.outcomes[i]? := by
  refine ⟨of g sizes scenarios entries, rfl, ?_, ?_, fun others same => ?_,
    fun others s i j listed listed' => ⟨of g sizes others entries, rfl, ?_⟩⟩
  · simp only [of, List.forall₂_map_right_iff, List.forall₂_same]
    exact fun s _ => s.tells_evaluate g sizes entries
  · -- The worse of two outcomes is chosen by their results.
    exact foldl_worse Outcome.result (of g sizes scenarios entries).outcomes .none
  · rw [run, of, Bytes.sortedSet_congr same]
    rfl
  · simp only [of, List.getElem?_map, listed, listed']

end Evaluation
end StackBound
