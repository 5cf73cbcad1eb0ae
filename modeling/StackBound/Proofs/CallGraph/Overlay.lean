import StackBound.Proofs.CallGraph.Edges
import StackBound.Proofs.FirstSeen

/-! Calls assumed beside a graph. An overlay that takes in calls one by one lists each once, where it was
first given; one that is made in any other way may repeat calls, or calls of the graph. Either way the
combined calls of a function are those of the graph and then the assumed ones, without repetition. -/
namespace StackBound.CallGraph.Overlay

variable {o : Overlay} {g : Graph}

theorem own_add (o : Overlay) (caller callee fn : Name) :
    (o.add caller callee).own fn =
      if caller = fn ∧ callee ∉ o.own fn then o.own fn ++ [callee] else o.own fn := by
  unfold add
  by_cases same : caller = fn
  · subst same
    split
    next known => rw [if_neg (by simpa using known)]
    next new =>
      rw [if_pos ⟨rfl, by simpa using new⟩]
      simp [own]
  · have aside : ¬(caller = fn ∧ callee ∉ o.own fn) := fun new => same new.1
    rw [if_neg aside]
    split
    · rfl
    · simp [own, Std.HashMap.getD_insert, same]

theorem own_ofEdges_concat (edges : List Edge) (edge : Edge) (fn : Name) :
    (ofEdges (edges ++ [edge])).own fn = ((ofEdges edges).add edge.caller edge.callee).own fn := by
  rw [ofEdges, List.foldl_append]
  rfl

/-- The callees assumed for a function stand in the order in which they were first given. -/
theorem own_ofEdges (edges : List Edge) (fn : Name) :
    (ofEdges edges).own fn = ((edges.filter (·.caller = fn)).map (·.callee)).eraseDups := by
  induction edges using List.reverseRecOn with
  | nil => simp [ofEdges]
  | append_singleton edges edge ih =>
    rw [own_ofEdges_concat, own_add, List.filter_append, List.map_append]
    by_cases same : edge.caller = fn
    · rw [List.filter_cons_of_pos (by simpa using same)]
      by_cases seen : edge.callee ∈ (edges.filter (·.caller = fn)).map (·.callee)
      · rw [if_neg (by simp [ih, seen]), ih]
        exact (eraseDups_concat_of_mem seen).symm
      · rw [if_pos ⟨same, by rwa [ih, List.mem_eraseDups]⟩, ih]
        exact (eraseDups_concat_of_not_mem seen).symm
    · rw [if_neg (fun new => same new.1), List.filter_cons_of_neg (by simpa using same)]
      simpa using ih

theorem nodup_own_ofEdges (edges : List Edge) (fn : Name) : ((ofEdges edges).own fn).Nodup := by
  rw [own_ofEdges]
  exact nodup_eraseDups _

theorem mem_edges_iff (o : Overlay) (caller callee : Name) :
    ⟨caller, callee⟩ ∈ o.edges ↔ callee ∈ o.own caller := by
  simp only [edges, callers, Bytes.sorted, List.mem_flatMap, List.mem_mergeSort, List.mem_map,
    Edge.mk.injEq, Std.HashMap.mem_keys]
  constructor
  · rintro ⟨_, -, _, assumed, rfl, rfl⟩
    exact assumed
  · intro assumed
    refine ⟨caller, ?_, callee, assumed, rfl, rfl⟩
    by_contra absent
    rw [own, Std.HashMap.getD_eq_fallback absent] at assumed
    cases assumed

theorem mem_calleeNames_iff (o : Overlay) (name : Name) :
    name ∈ o.calleeNames ↔ ∃ caller, name ∈ o.own caller := by
  simp only [calleeNames, List.mem_map, ← o.mem_edges_iff]
  constructor
  · rintro ⟨edge, member, rfl⟩
    exact ⟨edge.caller, member⟩
  · rintro ⟨caller, member⟩
    exact ⟨⟨caller, name⟩, member, rfl⟩

theorem nodup_edges (h : ∀ fn, (o.own fn).Nodup) : o.edges.Nodup := by
  have callers : o.callers.Nodup := (List.mergeSort_perm _ _).nodup_iff.mpr o.extra.nodup_keys
  exact nodup_flatMap_edge callers h

/-- An overlay has as many calls as it was given different ones. -/
theorem size_ofEdges {edges : List Edge} (nodup : edges.Nodup) : (ofEdges edges).size = edges.length := by
  have same : (ofEdges edges).edges.Perm edges := by
    apply (List.perm_ext_iff_of_nodup (nodup_edges (nodup_own_ofEdges edges)) nodup).mpr
    rintro ⟨caller, callee⟩
    exact (mem_edges_iff ..).trans (mem_own_ofEdges ..)
  exact same.length_eq

/-- Assumed calls that are looked at one by one follow those of the graph, each where it is first met. -/
theorem append_foldl_accept {fn : Name} (nodup : (g.callees fn).Nodup) (assumed : List Name) :
    g.callees fn ++ assumed.foldl (accept g fn) [] = (g.callees fn ++ assumed).eraseDups := by
  induction assumed using List.reverseRecOn with
  | nil => simpa using (eraseDups_eq_self nodup).symm
  | append_singleton assumed callee ih =>
    have met : (g.hasEdge fn callee || (assumed.foldl (accept g fn) []).contains callee) = true ↔
        callee ∈ g.callees fn ++ assumed := by
      rw [← List.mem_eraseDups, ← ih, List.mem_append, Bool.or_eq_true, Graph.hasEdge_iff,
        List.contains_iff_mem]
    rw [List.foldl_append, List.foldl_cons, List.foldl_nil, accept, ← List.append_assoc]
    by_cases seen : callee ∈ g.callees fn ++ assumed
    · rw [if_pos (met.mpr seen), eraseDups_concat_of_mem seen, ih]
    · rw [if_neg (mt met.mp seen), eraseDups_concat_of_not_mem seen, ← ih, List.append_assoc]

/-- The combined calls of a function are an ordered union. -/
theorem callees_eq {fn : Name} (nodup : (g.callees fn).Nodup) (o : Overlay) :
    o.callees g fn = (g.callees fn ++ o.own fn).eraseDups :=
  append_foldl_accept nodup (o.own fn)

end StackBound.CallGraph.Overlay
