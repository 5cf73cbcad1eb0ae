import StackBound.Proofs.Reach
import StackBound.Run.Analysis

/-! The entries of a run. They are the entry points asked for and the handlers found, and a run warns of
exactly those that neither the table, nor the graph, nor a scenario knows. The warning is made from what
is written down, and the bytes are counted by the search; the two agree, as a function in no call has
nothing but its own frame, and one without a record has an empty frame. -/
namespace StackBound

open CallGraph (Edge Graph Overlay)
open StackUsage (Table)

theorem CallGraph.Graph.Listed.mem_functions_iff {g : Graph} (h : g.Listed) (name : Name) :
    name ∈ g.functions ↔
      (∃ callee, g.hasEdge name callee = true) ∨ ∃ caller, g.hasEdge caller name = true := by
  rw [Graph.functions, Bytes.mem_sortedSet, List.mem_append, h.mem_callers_iff,
    h.mem_calleeNames_iff]

namespace Program

/-- A function that calls nobody has nothing but its own frame. -/
theorem worst_of_callees_eq_nil {p : Program} {fn : Name} (none : p.callees fn = []) :
    p.worst [] fn = ⟨p.frameSize fn, false, [fn], []⟩ := by
  have nobody : p.worstCallee [] fn = .zero := by
    rw [worstCallee, none]
    rfl
  rw [worst_of_not_mem List.not_mem_nil, nobody, WorstCase.extend_of_finite rfl]
  simp [WorstCase.zero]

end Program

namespace Run

/-- Nothing is known of a function: it has no size, and it stands in no call, be it one of the graph or
one that a scenario assumes. -/
structure Unknown (table : Table) (g : Graph) (scenarios : List Scenario) (name : Name) : Prop where
  unsized : table.lookup name = none
  calling : ∀ callee, g.hasEdge name callee = false
  called : ∀ caller, g.hasEdge caller name = false
  assumed : ∀ s ∈ scenarios, ∀ call ∈ s.additions.toList, call.caller ≠ name ∧ call.callee ≠ name

def zeroBytes (name : Name) : Warning :=
  .skipped (utf8 "entry points") 0
    (utf8 "entry point " ++ name.quoted ++
      utf8 " has no stack usage or call graph information; counted as 0 bytes")

section Warned

variable {table : Table} {g : Graph} {scenarios : List Scenario} {name : Name}

theorem contains_knownNames_iff (listed : g.Listed) :
    (knownNames g scenarios).contains name = true ↔
      ((∃ callee, g.hasEdge name callee = true) ∨ ∃ caller, g.hasEdge caller name = true) ∨
        ∃ s ∈ scenarios, ∃ call ∈ s.additions.toList, call.caller = name ∨ call.callee = name := by
  simp only [knownNames, Std.HashSet.contains_ofList, List.contains_iff_mem, List.mem_append,
    listed.mem_functions_iff, List.mem_flatMap, List.mem_cons, List.not_mem_nil, or_false,
    eq_comm (a := name)]

theorem unknown_iff (listed : g.Listed) :
    ((table.lookup name).isNone && !(knownNames g scenarios).contains name) = true ↔
      Unknown table g scenarios name := by
  rw [Bool.and_eq_true, Bool.not_eq_true', Bool.eq_false_iff, Ne, contains_knownNames_iff listed,
    Option.isNone_iff_eq_none]
  constructor
  · rintro ⟨unsized, apart⟩
    simp only [not_or, not_exists, Bool.not_eq_true, not_and] at apart
    exact ⟨unsized, apart.1.1, apart.1.2, apart.2⟩
  · rintro ⟨unsized, calling, called, assumed⟩
    refine ⟨unsized, ?_⟩
    simp only [not_or, not_exists, Bool.not_eq_true, not_and]
    exact ⟨⟨calling, called⟩, assumed⟩

/-- A function of which nothing is known costs nothing in any of the scenarios. -/
theorem Unknown.worst_eq (unknown : Unknown table g scenarios name) {s : Scenario}
    (member : s ∈ scenarios) :
    (s.program g table.frameSize).worst [] name = ⟨0, false, [name], []⟩ := by
  have nobody : (s.program g table.frameSize).callees name = [] := by
    refine List.eq_nil_iff_forall_not_mem.mpr fun callee call => ?_
    rcases Overlay.mem_callees_iff.mp call with base | extra
    · rw [unknown.calling callee] at base
      cases base
    · exact (unknown.assumed s member _ ((Overlay.mem_own_ofEdges ..).mp extra)).1 rfl
  have empty : (s.program g table.frameSize).frameSize name = 0 := by
    change table.frameSize name = 0
    rw [Table.frameSize, unknown.unsized]
    rfl
  rw [Program.worst_of_callees_eq_nil nobody, empty]

end Warned

/-- Warnings about entries are truthful and complete. The entries are those asked for and those found,
sorted and each once. One warning is given for each entry of which nothing is known and for no other,
after those about finding the handlers; and every scenario reports such an entry with no byte and with
itself as its path. -/
theorem resolveEntries_exact (table : Table) (calls : List Edge) (scenarios : List Scenario)
    (asked : List Name) (found : List Name × List Warning) :
    let g := Graph.ofEdges calls
    let entries := resolveEntries table g scenarios asked found
    entries.names.Pairwise (· < ·) ∧
    (∀ name, name ∈ entries.names ↔ name ∈ asked ∨ name ∈ found.1) ∧
    entries.isrs = found.1 ∧
    ∃ warned : List Name,
      entries.warnings = found.2 ++ warned.map zeroBytes ∧
      warned.Pairwise (· < ·) ∧
      (∀ name, name ∈ warned ↔ name ∈ entries.names ∧ Unknown table g scenarios name) ∧
      ∃ e, Evaluation.run false g table.frameSize scenarios entries.names = .ok e ∧
        List.Forall₂ (fun s o => o.label = s.label ∧ ∀ name ∈ warned,
          ⟨name, ⟨0, false, [name], []⟩⟩ ∈ o.entries ∧
            ∀ r ∈ o.entries, r.entry = name → r.result = ⟨0, false, [name], []⟩)
          scenarios e.outcomes := by
  intro g entries
  have listed : g.Listed := Graph.listed_ofEdges calls
  have names (name : Name) : name ∈ entries.names ↔ name ∈ asked ∨ name ∈ found.1 := by
    rw [← List.mem_append]
    exact Bytes.mem_sortedSet _
  have ascending : entries.names.Pairwise (· < ·) := Bytes.pairwise_sortedSet _
  refine ⟨ascending, names, rfl,
    entries.names.filter fun name =>
      (table.lookup name).isNone && !(knownNames g scenarios).contains name,
    rfl, ascending.filter _, fun name => ?_, .of g table.frameSize scenarios entries.names, rfl, ?_⟩
  · rw [List.mem_filter, unknown_iff listed]
  simp only [Evaluation.of, List.forall₂_map_right_iff, List.forall₂_same]
  intro s member
  have tells := s.tells_evaluate g table.frameSize entries.names
  refine ⟨tells.label, fun name warned => ?_⟩
  obtain ⟨entered, unknown⟩ := List.mem_filter.mp warned
  have result : ∀ r ∈ (s.evaluate g table.frameSize (Bytes.sortedSet entries.names)).entries,
      r.entry = name → r.result = ⟨0, false, [name], []⟩ := by
    rintro r inside rfl
    rw [tells.alone r inside, ((Analyzer.exact_fresh _).worstCase r.entry).1]
    exact ((unknown_iff listed).mp unknown).worst_eq member
  obtain ⟨r, inside, entry⟩ := List.mem_map.mp ((tells.complete name).mpr entered)
  have same : r = ⟨name, ⟨0, false, [name], []⟩⟩ := by
    rw [← result r inside entry, ← entry]
  exact ⟨same ▸ inside, result⟩

end Run
end StackBound
