import StackBound.Proofs.CallGraph.Resolution
import Mathlib.Data.List.Induction
import Mathlib.Data.List.Nodup

/-! The lists that a graph gives out. A graph that was built from calls lists each caller once, exactly
those that call someone, and each call once, and it has counted as many calls as it lists. So what two
graphs list differs at most in order where their calls are the same. -/
namespace StackBound.CallGraph.Graph

/-- Callers stand in the list of callers exactly if callees are kept for them, and each stands there
once. -/
structure Listed (g : Graph) : Prop where
  nodup : g.callers.Nodup
  kept : ∀ fn, fn ∈ g.callers ↔ fn ∈ g.targets
  calls : ∀ fn, fn ∈ g.targets ↔ g.callees fn ≠ []

theorem listed_empty : Listed empty := by
  constructor <;> simp [empty, callers, callees]

theorem Listed.add {g : Graph} (h : g.Listed) (edge : Edge) : (g.add edge).Listed := by
  obtain ⟨caller, callee⟩ := edge
  simp only [Graph.add, addEdge]
  split
  next => exact h
  next =>
    refine ⟨?_, fun fn => ?_, fun fn => ?_⟩
    · by_cases known : caller ∈ g.targets
      · simpa [Graph.callers, known] using h.nodup
      · have new : caller ∉ g.callers := mt (h.kept caller).mp known
        have longer : (g.callers ++ [caller]).Nodup :=
          h.nodup.append (List.nodup_singleton caller) (by simpa using new)
        simpa [Graph.callers, known] using longer
    · have before := h.kept fn
      rw [Std.HashMap.mem_alter]
      by_cases known : caller ∈ g.targets <;> by_cases same : caller = fn
      · subst same
        simpa [Graph.callers, known] using before
      · simpa [Graph.callers, known, same] using before
      · subst same
        simp [Graph.callers, known]
      · simpa [Graph.callers, known, same, Ne.symm same] using before
    · have before := h.calls fn
      rw [callees] at before
      rw [Std.HashMap.mem_alter, callees, Std.HashMap.getD_alter]
      by_cases same : caller = fn
      · simp [same]
      · simpa [same] using before

/-- A call is taken in if both its names are given and the graph does not have it yet. -/
theorem addEdge_new_iff (g : Graph) (caller callee : Name) :
    (g.addEdge caller callee).2 = true ↔
      caller ≠ [] ∧ callee ≠ [] ∧ g.hasEdge caller callee = false := by
  rw [addEdge]
  split
  next skip => simpa [imp_iff_not_or] using skip
  next accepted => simpa using accepted

theorem add_of_not_new {g : Graph} {edge : Edge} (old : (g.addEdge edge.caller edge.callee).2 = false) :
    g.add edge = g := by
  unfold Graph.add addEdge at *
  split at old
  next skip => rw [if_pos skip]
  next => cases old

theorem edgeCount_add_of_new {g : Graph} {edge : Edge}
    (new : (g.addEdge edge.caller edge.callee).2 = true) :
    (g.add edge).edgeCount = g.edgeCount + 1 := by
  unfold Graph.add addEdge at *
  split at new
  next => cases new
  next accepted => rw [if_neg accepted]; rfl

theorem listed_ofEdges (edges : List Edge) : (ofEdges edges).Listed := by
  suffices kept : ∀ g : Graph, g.Listed → (edges.foldl add g).Listed from kept empty listed_empty
  induction edges with
  | nil => exact fun g h => h
  | cons edge rest ih => exact fun g h => ih _ (h.add edge)

/-- The callers are the functions that call someone. -/
theorem Listed.mem_callers_iff {g : Graph} (h : g.Listed) (fn : Name) :
    fn ∈ g.callers ↔ ∃ callee, g.hasEdge fn callee = true := by
  rw [h.kept, h.calls]
  simp only [hasEdge_iff]
  exact ⟨List.exists_mem_of_ne_nil _, fun ⟨_, call⟩ => List.ne_nil_of_mem call⟩

theorem Listed.mem_edges_iff {g : Graph} (h : g.Listed) (fn callee : Name) :
    ⟨fn, callee⟩ ∈ g.edges ↔ g.hasEdge fn callee = true := by
  simp only [edges, List.mem_flatMap, List.mem_map, Edge.mk.injEq, hasEdge_iff]
  constructor
  · rintro ⟨_, -, _, call, rfl, rfl⟩
    exact call
  · intro call
    exact ⟨fn, (h.mem_callers_iff fn).mpr ⟨callee, hasEdge_iff.mpr call⟩, callee, call, rfl, rfl⟩

theorem Listed.nodup_edges {g : Graph} (h : g.Listed) (callees : ∀ fn, (g.callees fn).Nodup) :
    g.edges.Nodup :=
  nodup_flatMap_edge h.nodup callees

theorem ofEdges_concat (edges : List Edge) (edge : Edge) :
    ofEdges (edges ++ [edge]) = (ofEdges edges).add edge := by
  rw [ofEdges, List.foldl_append]
  rfl

theorem mem_edges_ofEdges {edges : List Edge} {fn callee : Name} :
    ⟨fn, callee⟩ ∈ (ofEdges edges).edges ↔ (ofEdges edges).hasEdge fn callee = true :=
  (listed_ofEdges edges).mem_edges_iff fn callee

theorem nodup_edges_ofEdges (edges : List Edge) : (ofEdges edges).edges.Nodup :=
  (listed_ofEdges edges).nodup_edges (nodup_callees_ofEdges edges)

/-- The calls counted are the calls listed. -/
theorem edgeCount_ofEdges (edges : List Edge) :
    (ofEdges edges).edgeCount = (ofEdges edges).edges.length := by
  induction edges using List.reverseRecOn with
  | nil => rfl
  | append_singleton edges edge ih =>
    cases new : ((ofEdges edges).addEdge edge.caller edge.callee).2 with
    | false => rw [ofEdges_concat, add_of_not_new new, ih]
    | true =>
      obtain ⟨caller, callee, absent⟩ := (addEdge_new_iff ..).mp new
      have unlisted : edge ∉ (ofEdges edges).edges := fun listed => by
        simp [mem_edges_ofEdges.mp listed] at absent
      have longer : (ofEdges (edges ++ [edge])).edges.Perm (edge :: (ofEdges edges).edges) := by
        refine (List.perm_ext_iff_of_nodup (nodup_edges_ofEdges _)
          (List.nodup_cons.mpr ⟨unlisted, nodup_edges_ofEdges edges⟩)).mpr fun ⟨fn, target⟩ => ?_
        rw [mem_edges_ofEdges, ofEdges_concat, hasEdge_add, List.mem_cons, mem_edges_ofEdges, or_comm,
          eq_comm]
        refine or_congr_left (and_iff_left_of_imp ?_)
        rintro rfl
        exact ⟨caller, callee⟩
      rw [longer.length_eq, ofEdges_concat, edgeCount_add_of_new new, ih, List.length_cons]

section Same

variable {edges edges' : List Edge}
  (same : ∀ fn callee, (ofEdges edges).hasEdge fn callee = (ofEdges edges').hasEdge fn callee)

include same

theorem perm_callers : (ofEdges edges).callers.Perm (ofEdges edges').callers := by
  have listed := listed_ofEdges edges
  have listed' := listed_ofEdges edges'
  refine (List.perm_ext_iff_of_nodup listed.nodup listed'.nodup).mpr fun fn => ?_
  simp only [listed.mem_callers_iff, listed'.mem_callers_iff, same]

theorem perm_edges : (ofEdges edges).edges.Perm (ofEdges edges').edges := by
  refine (List.perm_ext_iff_of_nodup (nodup_edges_ofEdges edges) (nodup_edges_ofEdges edges')).mpr
    fun ⟨fn, callee⟩ => ?_
  rw [mem_edges_ofEdges, mem_edges_ofEdges, same]

theorem edgeCount_congr : (ofEdges edges).edgeCount = (ofEdges edges').edgeCount := by
  rw [edgeCount_ofEdges, edgeCount_ofEdges, (perm_edges same).length_eq]

end Same

end StackBound.CallGraph.Graph
