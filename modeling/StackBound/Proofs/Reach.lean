import StackBound.Proofs.CallGraph.Callers
import StackBound.Proofs.CallGraph.Overlay
import StackBound.Proofs.Isolation
import StackBound.Proofs.StackUsage.Charge
import StackBound.Proofs.WorstCase.Trail
import StackBound.Reach

/-! The functions that nobody seems to call. They are listed exactly: all that a table knows and that
neither the graph, nor a scenario, nor the list of entries leads to. As whatever an evaluation names is
an entry or is called, none of them occurs in any path or cycle of it. -/
namespace StackBound

open CallGraph (Edge Graph Overlay)
open StackUsage (Record Table Update)

namespace CallGraph

theorem Graph.Listed.mem_calleeNames_iff {g : Graph} (h : g.Listed) (name : Name) :
    name ∈ g.calleeNames ↔ ∃ caller, g.hasEdge caller name = true := by
  simp only [calleeNames, List.mem_map, ← h.mem_edges_iff]
  constructor
  · rintro ⟨edge, member, rfl⟩
    exact ⟨edge.caller, member⟩
  · rintro ⟨caller, member⟩
    exact ⟨⟨caller, name⟩, member, rfl⟩

end CallGraph

namespace StackUsage.Table

theorem pairwise_identities (t : Table) : t.identities.Pairwise (· < ·) := by
  have distinct : t.identities.Nodup :=
    (List.mergeSort_perm _ _).nodup_iff.mpr t.normalized.nodup_keys
  refine ((Bytes.pairwise_sorted t.normalized.keys).and distinct).imp ?_
  rintro a b ⟨below, other⟩
  exact (List.le_iff_lt_or_eq.mp below).resolve_right other

/-- The identities are those of the records that were taken in. -/
theorem mem_identities_after (updates : List Update) (name : Name) :
    name ∈ (after updates).identities ↔
      ∃ r ∈ updates.flatMap Update.records, r.Accepted ∧ Name.normalize r.name = name := by
  have largest := (indexes_after updates).normalized name
  rw [identities, Bytes.sorted, List.mem_mergeSort, Std.HashMap.mem_keys,
    Std.HashMap.mem_iff_isSome_getElem?]
  cases found : (after updates).normalized[name]? with
  | none =>
    rw [found] at largest
    simp only [Option.isSome_none, Bool.false_eq_true, false_iff]
    rintro ⟨r, member, accepted, same⟩
    exact largest r.size ⟨r, member, accepted, same, rfl⟩
  | some size =>
    rw [found] at largest
    obtain ⟨⟨r, member, accepted, same, -⟩, -⟩ := largest
    exact iff_of_true rfl ⟨r, member, accepted, same⟩

end StackUsage.Table

namespace WorstCase

def Names (answer : WorstCase) (name : Name) : Prop := name ∈ answer.path ∨ name ∈ answer.cycle

theorem not_names_zero (name : Name) : ¬ zero.Names name := by
  simp [Names, zero]

end WorstCase

namespace Outcome

def Names (o : Outcome) (name : Name) : Prop :=
  o.result.Names name ∨ ∃ r ∈ o.entries, r.result.Names name

theorem not_names_none (name : Name) : ¬ none.Names name := by
  simp [Names, none, blank, WorstCase.not_names_zero]

end Outcome

namespace Scenario

variable {g : Graph} {sizes : Name → Int64} {s : Scenario} {entries : List Name} {entry name : Name}

/-- Whatever the answer for an entry names is the entry or is called. -/
theorem called_of_names_worst (named : ((s.program g sizes).worst [] entry).Names name) :
    name = entry ∨ ∃ caller, s.additions.overlay.Calls g caller name := by
  have member : name ∈ ((s.program g sizes).worst [] entry).path :=
    named.elim id Program.mem_path_of_mem_cycle
  rw [← Program.calls_ofGraph g s.additions.overlay sizes]
  exact ((s.program g sizes).callPath_worst entry).called member

theorem called_of_names (named : (s.evaluate g sizes (Bytes.sortedSet entries)).Names name) :
    name ∈ entries ∨ ∃ caller, s.additions.overlay.Calls g caller name := by
  suffices found : ∃ entry ∈ entries, ((s.program g sizes).worst [] entry).Names name by
    obtain ⟨entry, member, named⟩ := found
    rcases called_of_names_worst named with rfl | called
    · exact .inl member
    · exact .inr called
  rcases named with named | ⟨r, listed, named⟩
  · rcases s.result_evaluate_cases g sizes (Bytes.sortedSet entries) with none | ⟨entry, member, same⟩
    · exact absurd (none ▸ named) (WorstCase.not_names_zero name)
    · exact ⟨entry, (Bytes.mem_sortedSet _).mp member, same ▸ named⟩
  · have tells := s.tells_evaluate g sizes entries
    have member := (tells.complete r.entry).mp (List.mem_map_of_mem listed)
    rw [tells.alone r listed, ((Analyzer.exact_fresh _).worstCase r.entry).1] at named
    exact ⟨r.entry, member, named⟩

end Scenario

namespace Uncalled

theorem mem_called_iff (edges : List Edge) (scenarios : List Scenario) (entries : List Name)
    (name : Name) :
    (called (.ofEdges edges) (scenarios.map (·.additions.overlay)) entries).contains name = true ↔
      (∃ caller, (Graph.ofEdges edges).hasEdge caller name = true) ∨
        (∃ s ∈ scenarios, ∃ caller, name ∈ s.additions.overlay.own caller) ∨ name ∈ entries := by
  simp only [called, Std.HashSet.contains_ofList, List.contains_iff_mem, List.mem_append,
    List.mem_flatMap, List.mem_map, (Graph.listed_ofEdges edges).mem_calleeNames_iff,
    Overlay.mem_calleeNames_iff, or_assoc, exists_exists_and_eq_and]

/-- The list is exact: in ascending order and once each, it has the identities of all records taken in
that are no callee of the graph, no callee assumed by a scenario and no entry. No function on it is
named by the evaluation of these scenarios from these entries, neither in the overall outcome, nor in
that of a scenario, nor in the result of an entry. -/
theorem find_exact (updates : List Update) (edges : List Edge) (scenarios : List Scenario)
    (entries : List Name) (sizes : Name → Int64) :
    let g := Graph.ofEdges edges
    let names := (find (Table.after updates) g (scenarios.map (·.additions.overlay)) entries).map
      (·.name)
    names.Pairwise (· < ·) ∧
      (∀ name, name ∈ names ↔
        (∃ r ∈ updates.flatMap Update.records, r.Accepted ∧ Name.normalize r.name = name) ∧
        (¬ ∃ caller, g.hasEdge caller name = true) ∧
        (¬ ∃ s ∈ scenarios, ∃ caller, name ∈ s.additions.overlay.own caller) ∧ name ∉ entries) ∧
      ∃ e, Evaluation.run false g sizes scenarios entries = .ok e ∧
        ∀ name ∈ names, ¬ e.overall.Names name ∧ ∀ o ∈ e.outcomes, ¬ o.Names name := by
  intro g names
  have listed : names = (Table.after updates).identities.filter
      (!(called g (scenarios.map (·.additions.overlay)) entries).contains ·) := by
    simp only [names, find, List.map_map]
    exact List.map_id _
  have exact (name : Name) : name ∈ names ↔
      (∃ r ∈ updates.flatMap Update.records, r.Accepted ∧ Name.normalize r.name = name) ∧
      (¬ ∃ caller, g.hasEdge caller name = true) ∧
      (¬ ∃ s ∈ scenarios, ∃ caller, name ∈ s.additions.overlay.own caller) ∧ name ∉ entries := by
    rw [listed, List.mem_filter, Table.mem_identities_after, Bool.not_eq_true', Bool.eq_false_iff,
      Ne, mem_called_iff, not_or, not_or]
  refine ⟨?_, exact, Evaluation.of g sizes scenarios entries, rfl, fun name member => ?_⟩
  · rw [listed]
    exact (Table.pairwise_identities _).filter _
  obtain ⟨-, base, assumed, entry⟩ := (exact name).mp member
  have outcomes : ∀ o ∈ (Evaluation.of g sizes scenarios entries).outcomes, ¬ o.Names name := by
    intro o found named
    obtain ⟨s, inside, rfl⟩ := List.mem_map.mp found
    rcases Scenario.called_of_names named with entered | ⟨caller, known | own⟩
    · exact entry entered
    · exact base ⟨caller, known⟩
    · exact assumed ⟨s, inside, caller, own⟩
  refine ⟨fun named => ?_, outcomes⟩
  -- The overall outcome is one of the outcomes, or the empty one.
  rcases foldl_worse Outcome.result (Evaluation.of g sizes scenarios entries).outcomes .none with
    ⟨none, -⟩ | ⟨-, before, after, split, -⟩
  · exact Outcome.not_names_none name (none ▸ named)
  · have inside : (Evaluation.of g sizes scenarios entries).overall ∈
        (Evaluation.of g sizes scenarios entries).outcomes := by
      rw [split]
      exact List.mem_append_right before (List.mem_cons_self ..)
    exact outcomes _ inside named

end Uncalled
end StackBound
