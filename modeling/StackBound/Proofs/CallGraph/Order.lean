import Mathlib
import StackBound.Proofs.CallGraph.Callers
import StackBound.Proofs.FirstSeen

/-! The order in which a graph lists its calls. Callers stand where they first called someone, and the
callees of each where they were first called by it. Together with the count of calls and the set of
known ones, which say the same in other words, this fixes all that a graph built from calls gives out. -/
namespace StackBound.CallGraph

/-- The calls between two names; a graph leaves out all others. -/
def accepted (calls : List Edge) : List Edge :=
  calls.filter fun call => call.caller ≠ [] ∧ call.callee ≠ []

theorem mem_accepted {calls : List Edge} {call : Edge} :
    call ∈ accepted calls ↔ call ∈ calls ∧ call.caller ≠ [] ∧ call.callee ≠ [] := by
  simp [accepted]

theorem accepted_concat_of_named {call : Edge} (caller : call.caller ≠ []) (callee : call.callee ≠ [])
    (calls : List Edge) : accepted (calls ++ [call]) = accepted calls ++ [call] := by
  rw [accepted, List.filter_append, List.filter_cons_of_pos (by simp [caller, callee])]
  rfl

theorem accepted_concat_of_unnamed {call : Edge} (unnamed : call.caller = [] ∨ call.callee = [])
    (calls : List Edge) : accepted (calls ++ [call]) = accepted calls := by
  rw [accepted, List.filter_append, List.filter_cons_of_neg (by simpa [imp_iff_not_or] using unnamed)]
  simp [accepted]

namespace Graph

variable {g : Graph} {calls : List Edge} {edge : Edge}

theorem hasEdge_ofEdges_accepted (calls : List Edge) (fn callee : Name) :
    (ofEdges calls).hasEdge fn callee = true ↔ ⟨fn, callee⟩ ∈ accepted calls := by
  rw [hasEdge_ofEdges, mem_accepted]

theorem callees_add_of_new (new : (g.addEdge edge.caller edge.callee).2 = true) (fn : Name) :
    (g.add edge).callees fn =
      if edge.caller = fn then g.callees fn ++ [edge.callee] else g.callees fn := by
  unfold Graph.add addEdge at *
  split at new
  next => cases new
  next accepted =>
    rw [if_neg accepted]
    by_cases same : edge.caller = fn
    · subst same
      simp [callees, Std.HashMap.getD_eq_getD_getElem?]
    · simp [callees, Std.HashMap.getD_alter, same]

theorem callers_add_of_new (listed : g.Listed) (new : (g.addEdge edge.caller edge.callee).2 = true) :
    (g.add edge).callers =
      if edge.caller ∈ g.callers then g.callers else g.callers ++ [edge.caller] := by
  have kept := listed.kept edge.caller
  unfold Graph.add addEdge at *
  split at new
  next => cases new
  next accepted =>
    rw [if_neg accepted]
    by_cases known : edge.caller ∈ g.targets
    · rw [if_pos (kept.mpr known)]
      simp [callers, known]
    · rw [if_neg (mt kept.mp known)]
      simp [callers, known]

/-- Callers and callees stand where they were first seen among some calls. -/
structure Ordered (g : Graph) (calls : List Edge) : Prop where
  callees : ∀ fn, g.callees fn = ((calls.filter (·.caller = fn)).map (·.callee)).eraseDups
  callers : g.callers = (calls.map (·.caller)).eraseDups

/-- A call that a graph has already was seen before, and so were its caller and its callee. -/
theorem Ordered.concat_old (h : Ordered g calls) (old : g.hasEdge edge.caller edge.callee = true) :
    Ordered g (calls ++ [edge]) := by
  have seen : edge.callee ∈ (calls.filter (·.caller = edge.caller)).map (·.callee) := by
    rw [hasEdge_iff, h.callees, List.mem_eraseDups] at old
    exact old
  refine ⟨fun fn => ?_, ?_⟩
  · rw [List.filter_append, List.map_append, h.callees]
    by_cases same : edge.caller = fn
    · subst same
      rw [List.filter_cons_of_pos (by simp)]
      exact (eraseDups_concat_of_mem seen).symm
    · rw [List.filter_cons_of_neg (by simpa using same)]
      simp
  · obtain ⟨call, member, -⟩ := List.mem_map.mp seen
    obtain ⟨member, caller⟩ := List.mem_filter.mp member
    have known : edge.caller ∈ calls.map (·.caller) :=
      List.mem_map.mpr ⟨call, member, of_decide_eq_true caller⟩
    rw [List.map_append, List.map_singleton, eraseDups_concat_of_mem known, h.callers]

theorem Ordered.concat_new (h : Ordered g calls) (listed : g.Listed)
    (new : (g.addEdge edge.caller edge.callee).2 = true) : Ordered (g.add edge) (calls ++ [edge]) := by
  refine ⟨fun fn => ?_, ?_⟩
  · rw [callees_add_of_new new, List.filter_append, List.map_append]
    by_cases same : edge.caller = fn
    · subst same
      have absent := ((addEdge_new_iff ..).mp new).2.2
      have unseen : edge.callee ∉ (calls.filter (·.caller = edge.caller)).map (·.callee) := by
        rwa [← List.mem_eraseDups, ← h.callees, ← hasEdge_iff, Bool.not_eq_true]
      rw [if_pos rfl, List.filter_cons_of_pos (by simp), h.callees]
      exact (eraseDups_concat_of_not_mem unseen).symm
    · rw [if_neg same, List.filter_cons_of_neg (by simpa using same), h.callees]
      simp
  · rw [callers_add_of_new listed new, List.map_append, List.map_singleton, h.callers]
    split
    next seen => exact (eraseDups_concat_of_mem (List.mem_eraseDups.mp seen)).symm
    next unseen => exact (eraseDups_concat_of_not_mem (mt List.mem_eraseDups.mpr unseen)).symm

theorem ordered_ofEdges (calls : List Edge) : Ordered (ofEdges calls) (accepted calls) := by
  induction calls using List.reverseRecOn with
  | nil => constructor <;> simp [ofEdges, empty, Graph.callees, Graph.callers, accepted]
  | append_singleton calls edge ih =>
    rw [ofEdges_concat]
    cases new : ((ofEdges calls).addEdge edge.caller edge.callee).2 with
    | true =>
      obtain ⟨caller, callee, -⟩ := (addEdge_new_iff ..).mp new
      rw [accepted_concat_of_named caller callee]
      exact ih.concat_new (listed_ofEdges calls) new
    | false =>
      rw [add_of_not_new new]
      by_cases unnamed : edge.caller = [] ∨ edge.callee = []
      · rwa [accepted_concat_of_unnamed unnamed]
      · rw [not_or] at unnamed
        rw [accepted_concat_of_named unnamed.1 unnamed.2]
        refine ih.concat_old ?_
        by_contra absent
        have taken := (addEdge_new_iff ..).mpr ⟨unnamed.1, unnamed.2, Bool.eq_false_iff.mpr absent⟩
        simp [taken] at new

/-- The calls of one caller are listed in the order in which they were first made. -/
theorem Ordered.map_callees (h : Ordered g calls) (fn : Name) :
    (g.callees fn).map (⟨fn, ·⟩) = (calls.filter (·.caller = fn)).eraseDups := by
  have whole : ((calls.filter (·.caller = fn)).map (·.callee)).map (⟨fn, ·⟩) =
      calls.filter (·.caller = fn) := by
    rw [List.map_map]
    refine (List.map_congr_left fun ⟨caller, callee⟩ member => ?_).trans (List.map_id _)
    obtain rfl : caller = fn := by simpa using (List.mem_filter.mp member).2
    rfl
  rw [h.callees, ← eraseDups_map (fun a b same => (Edge.mk.inj same).2), whole]

/-- What a graph gives out after any calls. Each list of callees and that of callers is in the order of
first occurrence and without repetition; a call is known exactly if it is listed, and that is if it was
made between two names. The calls listed are these, each once, caller by caller, and they are as many as
the count and the lists of callees say. A further call is taken in exactly if it is one between two
names and was not made before. -/
theorem ofEdges_exact (calls : List Edge) :
    let g := ofEdges calls
    (∀ fn, (g.callees fn).Nodup ∧
      g.callees fn = (((accepted calls).filter (·.caller = fn)).map (·.callee)).eraseDups) ∧
    (∀ fn callee, (g.hasEdge fn callee = true ↔ callee ∈ g.callees fn) ∧
      (callee ∈ g.callees fn ↔ ⟨fn, callee⟩ ∈ calls ∧ fn ≠ [] ∧ callee ≠ [])) ∧
    g.callers.Nodup ∧ g.callers = ((accepted calls).map (·.caller)).eraseDups ∧
    (∀ fn, fn ∈ g.callers ↔ g.hasCaller fn = true) ∧
    g.edgeCount = (g.callers.map fun fn => (g.callees fn).length).sum ∧
    g.edgeCount = g.edges.length ∧
    g.edges.Nodup ∧ (∀ call, call ∈ g.edges ↔ call ∈ accepted calls) ∧
    (g.edges = g.callers.flatMap fun fn => ((accepted calls).filter (·.caller = fn)).eraseDups) ∧
    ∀ fn callee, (g.addEdge fn callee).2 = true ↔
      fn ≠ [] ∧ callee ≠ [] ∧ ⟨fn, callee⟩ ∉ accepted calls := by
  intro g
  have listed : g.Listed := listed_ofEdges calls
  have ordered : g.Ordered (accepted calls) := ordered_ofEdges calls
  have known := hasEdge_ofEdges calls
  have count : g.edgeCount = g.edges.length := edgeCount_ofEdges calls
  refine ⟨fun fn => ⟨nodup_callees_ofEdges calls fn, ordered.callees fn⟩,
    fun fn callee => ⟨hasEdge_iff, hasEdge_iff.symm.trans (known fn callee)⟩, listed.nodup,
    ordered.callers, fun fn => ?_, ?_, count, nodup_edges_ofEdges calls, fun ⟨fn, callee⟩ => ?_, ?_,
    fun fn callee => ?_⟩
  · rw [listed.kept, listed.calls, hasCaller]
    simp
  · rw [count, edges, List.length_flatMap]
    simp only [List.length_map]
  · rw [mem_edges_ofEdges, hasEdge_ofEdges_accepted]
  · simp only [edges, ordered.map_callees]
  · rw [addEdge_new_iff, ← hasEdge_ofEdges_accepted, Bool.not_eq_true]

end Graph
end StackBound.CallGraph
