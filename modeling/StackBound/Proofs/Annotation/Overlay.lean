import StackBound.Proofs.Annotation
import StackBound.Proofs.CallGraph.Overlay

/-! What a set of annotated calls adds to a graph. The set keeps its calls as a list and as an index, and
it is turned into an overlay; after any additions, under whatever clone names, the three say the same. -/
namespace StackBound.Annotations

open CallGraph (Edge Graph Overlay)

theorem mem_toList_ofList (calls : List Edge) (edge : Edge) :
    edge ∈ (ofList calls).toList ↔ (ofList calls).has edge = true := by
  rw [toList_ofList, has_ofList, List.mem_eraseDups, List.mem_map]

theorem nodup_toList_ofList (calls : List Edge) : (ofList calls).toList.Nodup := by
  rw [toList_ofList]
  exact nodup_eraseDups _

theorem add_new_iff (s : Annotations) (call : Edge) :
    (s.add call).2 = true ↔ s.has (normal call) = false := by
  cases known : s.known.contains (normal call) <;> simp [add, has, known]

theorem own_overlay {s : Annotations} (nodup : s.toList.Nodup) (fn : Name) :
    s.overlay.own fn = (s.toList.filter (·.caller = fn)).map (·.callee) := by
  rw [overlay, Overlay.own_ofEdges]
  -- Calls of one caller differ in their callees.
  apply eraseDups_eq_self
  apply (nodup.filter _).map_on
  rintro ⟨caller, callee⟩ first ⟨other, same⟩ second rfl
  obtain rfl : caller = fn := by simpa using (List.mem_filter.mp first).2
  obtain rfl : other = caller := by simpa using (List.mem_filter.mp second).2
  rfl

/-- The calls assumed beside a graph, which may be empty for want of one, follow those of the graph, each
where it first stands. A set lists the normal forms of its calls in the order in which they were first
given; its index has these calls, and a further call is new exactly if it is none of them. Its overlay
assumes them and no others, for each caller in the order of the list, and has as many. -/
theorem overlay_exact :
    (∀ (calls : List Edge) (o : Overlay) (fn : Name),
      o.callees (.ofEdges calls) fn = ((Graph.ofEdges calls).callees fn ++ o.own fn).eraseDups ∧
      o.callees .empty fn = (o.own fn).eraseDups) ∧
    ∀ calls : List Edge,
      let s := ofList calls
      s.toList =
        (calls.map fun call => ⟨call.caller.normalize, call.callee.normalize⟩).eraseDups ∧
      (∀ call, s.has call = true ↔ call ∈ s.toList) ∧
      (∀ call, (s.add call).2 = true ↔ ⟨call.caller.normalize, call.callee.normalize⟩ ∉ s.toList) ∧
      (∀ fn callee, callee ∈ s.overlay.own fn ↔ ⟨fn, callee⟩ ∈ s.toList) ∧
      (∀ fn, s.overlay.own fn = (s.toList.filter (·.caller = fn)).map (·.callee)) ∧
      s.overlay.size = s.size := by
  refine ⟨fun calls o fn => ⟨?_, ?_⟩, fun calls => ?_⟩
  · exact Overlay.callees_eq (Graph.nodup_callees_ofEdges calls fn) o
  · have nothing : Graph.empty.callees fn = [] := by simp [Graph.callees, Graph.empty]
    rw [Overlay.callees_eq (by simp [nothing]) o, nothing, List.nil_append]
  intro s
  have nodup : s.toList.Nodup := nodup_toList_ofList calls
  refine ⟨toList_ofList calls, fun call => (mem_toList_ofList calls call).symm, fun call => ?_,
    fun fn callee => Overlay.mem_own_ofEdges s.toList fn callee, own_overlay nodup, ?_⟩
  · rw [add_new_iff, ← Bool.not_eq_true, ← mem_toList_ofList]
    rfl
  · exact (Overlay.size_ofEdges nodup).trans Array.length_toList

end StackBound.Annotations
