import Mathlib.Data.List.Nodup
import StackBound.WorstCase.Program

/-! The calls of a graph and of an overlay beside it, as a relation. A call is combined if the graph
has it or the overlay assumes it; the callees that a search follows are exactly these. -/
namespace StackBound.CallGraph

/-- Calls listed caller by caller do not repeat if neither callers nor the callees of one do. -/
theorem nodup_flatMap_edge {callers : List Name} {callees : Name → List Name}
    (nodup : callers.Nodup) (each : ∀ fn, (callees fn).Nodup) :
    (callers.flatMap fun fn => (callees fn).map fun callee => Edge.mk fn callee).Nodup := by
  refine List.nodup_flatMap.mpr ⟨fun fn _ => ?_, nodup.imp fun {u v} apart => ?_⟩
  · exact (each fn).map fun a b same => (Edge.mk.inj same).2
  · intro edge first second
    obtain ⟨_, -, rfl⟩ := List.mem_map.mp first
    obtain ⟨_, -, same⟩ := List.mem_map.mp second
    exact apart (Edge.mk.inj same).1.symm

namespace Graph

theorem hasEdge_iff {g : Graph} {fn callee : Name} :
    g.hasEdge fn callee = true ↔ callee ∈ g.callees fn := by
  rw [hasEdge, Std.HashSet.contains_iff_mem, g.agree, callees, Array.mem_toList_iff]

@[simp] theorem hasEdge_empty (fn callee : Name) : empty.hasEdge fn callee = false := by
  simp [hasEdge, empty]

theorem hasEdge_add (g : Graph) (edge : Edge) (fn callee : Name) :
    (g.add edge).hasEdge fn callee = true ↔
      g.hasEdge fn callee = true ∨ edge = ⟨fn, callee⟩ ∧ fn ≠ [] ∧ callee ≠ [] := by
  obtain ⟨caller, target⟩ := edge
  simp only [add, addEdge]
  split
  next skip =>
    constructor
    · exact .inl
    · rintro (known | ⟨same, named, target'⟩)
      · exact known
      · cases same
        rcases skip with empty | empty | known
        · exact absurd empty named
        · exact absurd empty target'
        · exact known
  next accepted =>
    simp only [not_or] at accepted
    simp only [hasEdge, Std.HashSet.contains_insert, Bool.or_eq_true, beq_iff_eq, Edge.mk.injEq]
    constructor
    · rintro (⟨rfl, rfl⟩ | known)
      · exact .inr ⟨⟨rfl, rfl⟩, accepted.1, accepted.2.1⟩
      · exact .inl known
    · rintro (known | ⟨same, _⟩)
      · exact .inr known
      · exact .inl same

/-- A graph has the calls it was built from, except those with an empty name. -/
theorem hasEdge_ofEdges (edges : List Edge) (fn callee : Name) :
    (ofEdges edges).hasEdge fn callee = true ↔ ⟨fn, callee⟩ ∈ edges ∧ fn ≠ [] ∧ callee ≠ [] := by
  suffices built : ∀ g : Graph, (edges.foldl add g).hasEdge fn callee = true ↔
      g.hasEdge fn callee = true ∨ ⟨fn, callee⟩ ∈ edges ∧ fn ≠ [] ∧ callee ≠ [] by
    simpa [ofEdges] using built empty
  induction edges with
  | nil => simp
  | cons edge rest ih =>
    intro g
    rw [List.foldl_cons, ih, hasEdge_add, List.mem_cons, eq_comm (a := edge), or_and_right, or_assoc]

end Graph

namespace Overlay

@[simp] theorem own_empty (fn : Name) : empty.own fn = [] := by
  simp [own, empty]

theorem mem_own_add (o : Overlay) (caller target fn callee : Name) :
    callee ∈ (o.add caller target).own fn ↔
      callee ∈ o.own fn ∨ caller = fn ∧ target = callee := by
  unfold add
  split
  next known =>
    have known : target ∈ o.own caller := by simpa using known
    constructor
    · exact .inl
    · rintro (member | ⟨rfl, rfl⟩)
      · exact member
      · exact known
  next =>
    by_cases same : caller = fn
    · subst same
      simp [own, eq_comm]
    · simp [own, Std.HashMap.getD_insert, same]

/-- An overlay assumes the calls it was built from. -/
theorem mem_own_ofEdges (edges : List Edge) (fn callee : Name) :
    callee ∈ (ofEdges edges).own fn ↔ ⟨fn, callee⟩ ∈ edges := by
  suffices built : ∀ o : Overlay,
      callee ∈ (edges.foldl (fun o e => o.add e.caller e.callee) o).own fn ↔
        callee ∈ o.own fn ∨ ⟨fn, callee⟩ ∈ edges by
    simpa [ofEdges] using built empty
  induction edges with
  | nil => simp
  | cons edge rest ih =>
    intro o
    obtain ⟨caller, target⟩ := edge
    rw [List.foldl_cons, ih, mem_own_add, List.mem_cons, Edge.mk.injEq, eq_comm (a := fn),
      eq_comm (a := callee), or_assoc]

def Calls (o : Overlay) (g : Graph) (fn callee : Name) : Prop :=
  g.hasEdge fn callee = true ∨ callee ∈ o.own fn

theorem calls_ofEdges (known assumed : List Edge) (fn callee : Name) :
    (ofEdges assumed).Calls (.ofEdges known) fn callee ↔
      (⟨fn, callee⟩ ∈ known ∧ fn ≠ [] ∧ callee ≠ []) ∨ ⟨fn, callee⟩ ∈ assumed := by
  rw [Calls, Graph.hasEdge_ofEdges, mem_own_ofEdges]

theorem calls_empty_ofEdges (known : List Edge) (fn callee : Name) :
    empty.Calls (.ofEdges known) fn callee ↔ ⟨fn, callee⟩ ∈ known ∧ fn ≠ [] ∧ callee ≠ [] := by
  rw [Calls, Graph.hasEdge_ofEdges, own_empty, or_iff_left List.not_mem_nil]

/-- Looking at assumed calls drops none that the graph does not have. -/
theorem mem_foldl_accept_of_mem {g : Graph} {fn callee : Name} (new : g.hasEdge fn callee = false)
    (assumed added : List Name) (member : callee ∈ added ∨ callee ∈ assumed) :
    callee ∈ assumed.foldl (accept g fn) added := by
  induction assumed generalizing added with
  | nil => simpa using member
  | cons next rest ih =>
    refine ih _ ?_
    by_cases later : callee ∈ rest
    · exact .inr later
    · left
      unfold accept
      split
      next skip =>
        rcases member with early | member
        · exact early
        · rcases List.mem_cons.mp member with rfl | inside
          · simpa [new] using skip
          · exact absurd inside later
      next =>
        rcases member with early | member
        · exact List.mem_append_left _ early
        · rcases List.mem_cons.mp member with rfl | inside
          · exact List.mem_append_right _ (by simp)
          · exact absurd inside later

/-- The callees that are followed are those of the combined calls. -/
theorem mem_callees_iff {o : Overlay} {g : Graph} {fn callee : Name} :
    callee ∈ o.callees g fn ↔ o.Calls g fn callee := by
  rw [Calls, Graph.hasEdge_iff]
  constructor
  · exact mem_callees
  · intro call
    by_cases known : callee ∈ g.callees fn
    · exact List.mem_append_left _ known
    · have new : g.hasEdge fn callee = false :=
        Bool.eq_false_iff.mpr (mt Graph.hasEdge_iff.mp known)
      exact List.mem_append_right _
        (mem_foldl_accept_of_mem new _ _ (.inr (call.resolve_left known)))

end Overlay
end StackBound.CallGraph
