import Mathlib
import StackBound.Symbol

/-! Paths and cycles of a call relation, and the bytes a path takes with all its functions active.
The sums here are exact; they say what is to be computed, not how. -/
namespace StackBound

open Relation (ReflTransGen TransGen)

/-- Functions that each call the next, the first one given. -/
structure CallPath (calls : Name → Name → Prop) (start : Name) (path : List Name) : Prop where
  head : path.head? = some start
  chain : path.IsChain calls

/-- Some function that leads back to itself is reached in zero or more calls. -/
def ReachesCycle (calls : Name → Name → Prop) (start : Name) : Prop :=
  ∃ fn, ReflTransGen calls start fn ∧ TransGen calls fn fn

def stackUse (sizes : Name → Int64) (path : List Name) : Int :=
  (path.map fun fn => (sizes fn).toInt).sum

@[simp] theorem stackUse_nil (sizes : Name → Int64) : stackUse sizes [] = 0 := rfl

@[simp] theorem stackUse_cons (sizes : Name → Int64) (fn : Name) (path : List Name) :
    stackUse sizes (fn :: path) = (sizes fn).toInt + stackUse sizes path := by
  simp [stackUse]

variable {calls : Name → Name → Prop} {start fn callee : Name} {path active : List Name}

/-- Whoever comes earlier on a chain of calls leads to its end. -/
theorem transGen_of_isChain (chain : (active ++ [callee]).IsChain calls) (member : fn ∈ active) :
    TransGen calls fn callee := by
  have pairwise := List.isChain_iff_pairwise.mp (chain.imp fun _ _ => TransGen.single)
  exact (List.pairwise_append.mp pairwise).2.2 fn member callee (by simp)

theorem isChain_snoc (chain : (active ++ [fn]).IsChain calls) (call : calls fn callee) :
    (active ++ [fn] ++ [callee]).IsChain calls :=
  List.isChain_append.mpr ⟨chain, .singleton callee, by simpa using call⟩

namespace ReachesCycle

theorem of_call (call : calls fn callee) (cyclic : ReachesCycle calls callee) :
    ReachesCycle calls fn := by
  obtain ⟨target, reached, cycle⟩ := cyclic
  exact ⟨target, .head call reached, cycle⟩

theorem of_reaches (cyclic : ReachesCycle calls callee) (way : ReflTransGen calls fn callee) :
    ReachesCycle calls fn := by
  obtain ⟨target, reached, cycle⟩ := cyclic
  exact ⟨target, way.trans reached, cycle⟩

/-- A cycle within reach is within reach of some callee: where it passes through the function
itself, the first call of the cycle leads round to the function again. -/
theorem exists_call (cyclic : ReachesCycle calls fn) :
    ∃ callee, calls fn callee ∧ ReachesCycle calls callee := by
  obtain ⟨target, reached, cycle⟩ := cyclic
  rcases reached.cases_head with rfl | ⟨callee, call, onward⟩
  · obtain ⟨callee, call, back⟩ := TransGen.head'_iff.mp cycle
    exact ⟨callee, call, fn, back, cycle⟩
  · exact ⟨callee, call, target, onward, cycle⟩

/-- Calls that always lead to a function of greater rank never lead back. -/
theorem not_of_rank (rank : Name → Nat)
    (rises : ∀ {fn callee}, calls fn callee → rank fn < rank callee) (start : Name) :
    ¬ ReachesCycle calls start := by
  rintro ⟨fn, -, around⟩
  have climbs : TransGen (· < ·) (rank fn) (rank fn) := around.lift rank fun _ _ => rises
  rw [Relation.transGen_eq_self] at climbs
  exact lt_irrefl _ climbs

end ReachesCycle

namespace CallPath

theorem single : CallPath calls fn [fn] := ⟨rfl, .singleton fn⟩

theorem cons (call : calls fn callee) (onward : CallPath calls callee path) :
    CallPath calls fn (fn :: path) := by
  refine ⟨rfl, List.isChain_cons.mpr ⟨fun next first => ?_, onward.chain⟩⟩
  rw [onward.head] at first
  exact Option.some.inj first ▸ call

theorem snoc (h : CallPath calls start (active ++ [fn])) (call : calls fn callee) :
    CallPath calls start (active ++ [fn] ++ [callee]) := by
  refine ⟨?_, isChain_snoc h.chain call⟩
  rw [List.head?_append, h.head]
  rfl

theorem pop (h : CallPath calls start (active ++ [fn])) (nonempty : active ≠ []) :
    CallPath calls start active := by
  refine ⟨?_, h.chain.prefix (List.prefix_append active [fn])⟩
  rw [← List.head?_append_of_ne_nil _ nonempty]
  exact h.head

/-- A path is one function, or a call followed by a path. -/
theorem eq_or_cons (h : CallPath calls fn path) :
    path = [fn] ∨ ∃ callee rest, calls fn callee ∧ path = fn :: rest ∧
      CallPath calls callee rest := by
  obtain ⟨head, chain⟩ := h
  match path with
  | [] => simp at head
  | [only] =>
    left
    simpa using head
  | first :: callee :: rest =>
    right
    obtain rfl : first = fn := by simpa using head
    obtain ⟨call, onward⟩ := List.isChain_cons_cons.mp chain
    exact ⟨callee, callee :: rest, call, rfl, rfl, onward⟩

theorem reaches (h : CallPath calls start path) (member : fn ∈ path) :
    ReflTransGen calls start fn := by
  obtain ⟨before, after, rfl⟩ := List.append_of_mem member
  cases before with
  | nil =>
    obtain rfl : fn = start := by simpa using h.head
    exact .refl
  | cons first before =>
    obtain rfl : first = start := by simpa using h.head
    have chain : (first :: before ++ [fn]).IsChain calls := h.chain.prefix ⟨after, by simp⟩
    exact (transGen_of_isChain chain (by simp)).to_reflTransGen

/-- A path without repetition that ends where it starts makes no call. -/
theorem eq_single_of_getLast? (h : CallPath calls start path) (nodup : path.Nodup)
    (ends : path.getLast? = some start) : path = [start] := by
  rcases h.eq_or_cons with rfl | ⟨callee, rest, -, rfl, onward⟩
  · rfl
  · have nonempty : rest ≠ [] := by
      rintro rfl
      cases onward.head
    rw [List.getLast?_cons_of_ne_nil nonempty] at ends
    exact absurd (List.mem_of_getLast? ends) (List.nodup_cons.mp nodup).1

/-- A function met twice on a path lies on a cycle. -/
theorem nodup (h : CallPath calls start path) (acyclic : ¬ ReachesCycle calls start) :
    path.Nodup := by
  have pairwise := List.isChain_iff_pairwise.mp (h.chain.imp fun _ _ => TransGen.single)
  refine pairwise.imp_of_mem fun {a b} member _ onward => ?_
  rintro rfl
  exact acyclic ⟨a, h.reaches member, onward⟩

end CallPath
end StackBound
