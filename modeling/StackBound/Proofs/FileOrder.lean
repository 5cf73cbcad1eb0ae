import StackBound.Proofs.CallGraph.Callers
import StackBound.Proofs.Evaluation
import StackBound.Proofs.StackUsage.History
import StackBound.Proofs.WorstCase.Figures
import StackBound.Run.Analysis

/-! The order in which files are taken in. It shows in the lists of a graph and in the paths and cycles
that are named, but not in any number: sizes are largest sizes, calls are a set of calls, and figures
of results depend on these alone. Dumps must not give an identifier to two different functions, for the
last one would win. -/
namespace StackBound

open CallGraph (CallList Definition Dump Edge Gathered Graph nameOf? refsOf)
open StackUsage (Listing Record Table Update)

/-! ### Frame sizes -/

def Run.recordsOf (files : List (Path × Listing)) : List Record := files.flatMap (·.2.records)

theorem Run.indexes_tableOf (files : List (Path × Listing)) :
    (tableOf files).Indexes (recordsOf files) := by
  have history := Table.indexes_after (files.map fun file => Update.merge file.2.records)
  rwa [Table.after, List.foldl_map, List.flatMap_map] at history

/-! ### Calls -/

namespace CallGraph

/-- No identifier stands for two different functions. -/
def Consistent (definitions : List Definition) : Prop :=
  ∀ d ∈ definitions, ∀ d' ∈ definitions, d.id = d'.id → d.name.normalize = d'.name.normalize

instance (definitions : List Definition) : Decidable (Consistent definitions) :=
  inferInstanceAs (Decidable (∀ d ∈ definitions, ∀ d' ∈ definitions, d.id = d'.id →
    d.name.normalize = d'.name.normalize))

theorem mem_of_nameOf? {definitions : List Definition} {id : Bytes} {name : Name}
    (defined : nameOf? definitions id = some name) : ⟨id, name⟩ ∈ definitions := by
  obtain ⟨d, found, rfl⟩ := Option.map_eq_some_iff.mp defined
  obtain rfl : d.id = id := by simpa using List.find?_some found
  exact List.mem_reverse.mp (List.mem_of_find?_eq_some found)

theorem nameOf?_isSome {definitions : List Definition} {d : Definition} (member : d ∈ definitions) :
    (nameOf? definitions d.id).isSome = true := by
  rw [nameOf?, Option.isSome_map, List.find?_isSome]
  exact ⟨d, List.mem_reverse.mpr member, by simp⟩

/-- Which definition of an identifier comes last does not matter for the function it stands for. -/
theorem Consistent.nameOf?_congr {definitions definitions' : List Definition}
    (consistent : Consistent definitions) (same : ∀ d, d ∈ definitions ↔ d ∈ definitions')
    (id : Bytes) :
    (nameOf? definitions id).map Name.normalize = (nameOf? definitions' id).map Name.normalize := by
  cases defined : nameOf? definitions id with
  | none =>
    cases defined' : nameOf? definitions' id with
    | none => rfl
    | some name =>
      have found := nameOf?_isSome ((same _).mpr (mem_of_nameOf? defined'))
      simp [defined] at found
  | some name =>
    have member := mem_of_nameOf? defined
    cases defined' : nameOf? definitions' id with
    | none =>
      have found := nameOf?_isSome ((same _).mp member)
      simp [defined'] at found
    | some name' =>
      have member' := (same _).mpr (mem_of_nameOf? defined')
      exact congrArg some (consistent _ member _ member' rfl)

namespace Gathered

variable {g g' : Gathered} {definitions definitions' : List Definition}
  {lists lists' : List CallList}

/-- The calls that references stand for, by the functions that their identifiers stand for. -/
theorem Holds.mem_resolved_iff (h : Holds g definitions lists) (edge : Edge) :
    edge ∈ g.resolved ↔ ∃ list ∈ lists, ∃ ref ∈ list.refs, list.caller.normalize = edge.caller ∧
      (nameOf? definitions ref).map Name.normalize = some edge.callee := by
  obtain ⟨caller, callee⟩ := edge
  simp only [h.mem_resolved, Option.map_eq_some_iff, Edge.mk.injEq]
  constructor
  · rintro ⟨list, listed, ref, member, name, defined, rfl, rfl⟩
    exact ⟨list, listed, ref, member, rfl, name, defined, rfl⟩
  · rintro ⟨list, listed, ref, member, rfl, name, defined, rfl⟩
    exact ⟨list, listed, ref, member, name, defined, rfl, rfl⟩

theorem perm_refsOf (same : lists.Perm lists') (caller : Name) :
    (refsOf lists caller).Perm (refsOf lists' caller) :=
  (same.filter _).flatMap_right _

/-- Callers and their references are listed in another order, but none is lost. -/
theorem Holds.perm_unresolved (h : Holds g definitions lists) (h' : Holds g' definitions' lists')
    (calls : lists.Perm lists')
    (defined : ∀ id, (nameOf? definitions id).isNone = (nameOf? definitions' id).isNone) :
    g.unresolved.Perm g'.unresolved := by
  have callers : (lists.map (·.caller)).eraseDups.Perm (lists'.map (·.caller)).eraseDups := by
    refine (List.perm_ext_iff_of_nodup (nodup_eraseDups _) (nodup_eraseDups _)).mpr fun caller => ?_
    rw [List.mem_eraseDups, List.mem_eraseDups]
    exact (calls.map _).mem_iff
  rw [h.unresolved, h'.unresolved]
  refine callers.flatMap fun caller _ => ?_
  simp only [defined]
  exact ((perm_refsOf calls caller).filter _).map _

end Gathered
end CallGraph

/-! ### Results -/

def EntryResult.figures (r : EntryResult) : EntryResult := { r with result := r.result.figures }

namespace Outcome

def figures (o : Outcome) : Outcome :=
  { o with result := o.result.figures, entries := o.entries.map EntryResult.figures }

theorem figures_addEntry (o : Outcome) (entry : Name) (result : WorstCase) :
    (o.addEntry entry result).figures = o.figures.addEntry entry result.figures := by
  by_cases worse : result.greater o.result = true <;>
    simp [addEntry, figures, EntryResult.figures, worse]

theorem figures_foldl_addEntry (results : Name → WorstCase) (entries : List Name) (o : Outcome) :
    (entries.foldl (fun o entry => o.addEntry entry (results entry)) o).figures =
      entries.foldl (fun o entry => o.addEntry entry (results entry).figures) o.figures :=
  (List.foldl_hom figures fun o entry => (figures_addEntry o entry (results entry)).symm).symm

theorem figures_max (best next : Outcome) :
    (best.max next).figures = best.figures.max next.figures := by
  by_cases worse : next.result.greater best.result = true <;> simp [max, figures, worse]

theorem figures_foldl_max (outcomes : List Outcome) (best : Outcome) :
    (outcomes.foldl max best).figures = (outcomes.map figures).foldl max best.figures := by
  rw [List.foldl_map]
  exact (List.foldl_hom figures fun best next => (figures_max best next).symm).symm

end Outcome

namespace Evaluation

def figures (e : Evaluation) : Evaluation := ⟨e.outcomes.map Outcome.figures, e.overall.figures⟩

variable {g g' : Graph} {sizes sizes' : Name → Int64}

theorem figures_evaluate_congr (calls : ∀ u v, g.hasEdge u v = g'.hasEdge u v)
    (sizes_eq : ∀ name, sizes name = sizes' name) (entries : List Name) (s : Scenario) :
    (s.evaluate g sizes entries).figures = (s.evaluate g' sizes' entries).figures := by
  have worst (entry : Name) : ((s.program g sizes).worst [] entry).figures =
      ((s.program g' sizes').worst [] entry).figures := by
    refine Program.figures_worst_congr (fun fn callee => ?_) sizes_eq [] entry
    rw [Scenario.program, Scenario.program, Program.calls_ofGraph, Program.calls_ofGraph]
    simp only [CallGraph.Overlay.Calls, calls]
  simp only [Scenario.evaluate_eq, Outcome.figures_foldl_addEntry, worst]

theorem figures_of_congr (calls : ∀ u v, g.hasEdge u v = g'.hasEdge u v)
    (sizes_eq : ∀ name, sizes name = sizes' name) (scenarios : List Scenario) (entries : List Name) :
    (of g sizes scenarios entries).figures = (of g' sizes' scenarios entries).figures := by
  have outcomes : (of g sizes scenarios entries).outcomes.map Outcome.figures =
      (of g' sizes' scenarios entries).outcomes.map Outcome.figures := by
    simp only [of, List.map_map]
    exact List.map_congr_left fun s _ => figures_evaluate_congr calls sizes_eq _ s
  have overall : (of g sizes scenarios entries).overall.figures =
      (of g' sizes' scenarios entries).overall.figures := by
    rw [of, Outcome.figures_foldl_max, of, Outcome.figures_foldl_max]
    exact congrArg (List.foldl Outcome.max Outcome.none.figures) outcomes
  rw [figures, figures, outcomes, overall]

/-- The order of the files does not show in any number. Taking in the same listings and dumps in
another order gives the same sizes by raw name and by identity, the same calls and callers, and the same
unresolved references; and every scenario from every entry, each outcome and the overall one have the
same figures, under the same names. -/
theorem run_perm {files files' : List (Path × Listing)} {dumps dumps' : List Dump}
    (sameFiles : files.Perm files') (sameDumps : dumps.Perm dumps')
    (consistent : CallGraph.Consistent (dumps.flatMap (·.definitions))) (ignored : Edge → Bool) :
    let table := Run.tableOf files
    let table' := Run.tableOf files'
    let built := (Gathered.ofDumps dumps).build ignored
    let built' := (Gathered.ofDumps dumps').build ignored
    (∀ name : Name, table.sizes[name]? = table'.sizes[name]?) ∧
      (∀ name : Name, table.normalized[name]? = table'.normalized[name]?) ∧
      (∀ u v, built.graph.hasEdge u v = built'.graph.hasEdge u v) ∧
      built.graph.edges.Perm built'.graph.edges ∧
      built.graph.edgeCount = built'.graph.edgeCount ∧
      built.graph.callers.Perm built'.graph.callers ∧
      built.unresolved.Perm built'.unresolved ∧
      ∀ (canceled : Bool) (scenarios : List Scenario) (entries : List Name),
        (run canceled built.graph table.frameSize scenarios entries).map figures =
          (run canceled built'.graph table'.frameSize scenarios entries).map figures := by
  intro table table' built built'
  have records (r : Record) : r ∈ Run.recordsOf files ↔ r ∈ Run.recordsOf files' :=
    (sameFiles.flatMap_right _).mem_iff
  obtain ⟨sizes, normalized⟩ :=
    (Run.indexes_tableOf files).congr (Run.indexes_tableOf files') records
  have holds := Gathered.holds_ofDumps dumps
  have holds' := Gathered.holds_ofDumps dumps'
  have lists : (dumps.flatMap (·.calls)).Perm (dumps'.flatMap (·.calls)) := sameDumps.flatMap_right _
  have names := consistent.nameOf?_congr fun d => (sameDumps.flatMap_right (·.definitions)).mem_iff
  have calls (u v : Name) : built.graph.hasEdge u v = built'.graph.hasEdge u v := by
    rw [Bool.eq_iff_iff]
    simp only [built, built', Gathered.build, Graph.hasEdge_ofEdges, List.mem_filter,
      holds.mem_resolved_iff, holds'.mem_resolved_iff, lists.mem_iff, names]
  have defined (id : Bytes) : (nameOf? (dumps.flatMap (·.definitions)) id).isNone =
      (nameOf? (dumps'.flatMap (·.definitions)) id).isNone := by
    simpa only [Option.isNone_map] using congrArg Option.isNone (names id)
  refine ⟨sizes, normalized, calls, Graph.perm_edges calls, Graph.edgeCount_congr calls,
    Graph.perm_callers calls, holds.perm_unresolved holds' lists defined,
    fun canceled scenarios entries => ?_⟩
  have figures := figures_of_congr calls (Table.frameSize_congr sizes normalized) scenarios entries
  unfold run
  split
  · rfl
  · exact congrArg Except.ok figures

/-- Two listings and two dumps the other way round: the larger frame comes first or last, and an
identifier is defined by the name of a clone first or last. -/
theorem run_perm_swapped :
    let listing : Path × Listing := (utf8 "a.su", ⟨[⟨utf8 "f", 8⟩, ⟨utf8 "g.part.0", 24⟩], []⟩)
    let listing' : Path × Listing := (utf8 "b.su", ⟨[⟨utf8 "f", 16⟩, ⟨utf8 "g", 4⟩], []⟩)
    let dump : Dump := ⟨[⟨utf8 "f/1", utf8 "f"⟩, ⟨utf8 "g/2", utf8 "g.part.0"⟩],
      [⟨utf8 "f", [utf8 "g/2", utf8 "x/9"]⟩]⟩
    let dump' : Dump := ⟨[⟨utf8 "g/2", utf8 "g"⟩], [⟨utf8 "g", [utf8 "f/1"]⟩]⟩
    let built := (Gathered.ofDumps [dump, dump']).build fun _ => false
    let built' := (Gathered.ofDumps [dump', dump]).build fun _ => false
    [listing, listing'].Perm [listing', listing] ∧ [dump, dump'].Perm [dump', dump] ∧
      CallGraph.Consistent ([dump, dump'].flatMap (·.definitions)) ∧
      built.graph.edgeCount = built'.graph.edgeCount ∧
      (run false built.graph (Run.tableOf [listing, listing']).frameSize [.base] [utf8 "f"]).map
          figures =
        (run false built'.graph (Run.tableOf [listing', listing]).frameSize [.base] [utf8 "f"]).map
          figures := by
  intro listing listing' dump dump' built built'
  have files : [listing, listing'].Perm [listing', listing] := .swap ..
  have dumps : [dump, dump'].Perm [dump', dump] := .swap ..
  have consistent : CallGraph.Consistent ([dump, dump'].flatMap (·.definitions)) := by decide
  obtain ⟨-, -, -, -, count, -, -, same⟩ := run_perm files dumps consistent fun _ => false
  exact ⟨files, dumps, consistent, count, same false [.base] [utf8 "f"]⟩

end Evaluation
end StackBound
