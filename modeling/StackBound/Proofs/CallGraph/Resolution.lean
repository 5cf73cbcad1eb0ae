import StackBound.Annotation
import StackBound.CallGraph.Resolution
import StackBound.Proofs.CallGraph.Edges
import StackBound.Proofs.FirstSeen
import StackBound.Proofs.Symbol

/-! Dumps resolved into a graph. The references of all dumps are gathered by raw caller, and each is
either a call of the graph, or ignored, or listed as unresolved: nothing is lost, and nothing is there
that no dump refers to. -/
namespace StackBound

open CallGraph (Edge)

namespace Annotations

theorem has_insert (s : Annotations) (call edge : Edge) :
    (s.insert call).has edge = true ↔ s.has edge = true ∨ normal call = edge := by
  simp only [insert, add, has]
  split
  next known =>
    constructor
    · exact .inl
    · rintro (member | rfl)
      · exact member
      · exact known
  next => simp [or_comm]

/-- A set has the normal forms of the calls it was built from. -/
theorem has_ofList (calls : List Edge) (edge : Edge) :
    (ofList calls).has edge = true ↔ ∃ call ∈ calls, normal call = edge := by
  suffices built : ∀ s : Annotations, (calls.foldl insert s).has edge = true ↔
      s.has edge = true ∨ ∃ call ∈ calls, normal call = edge by
    simpa [ofList, has, empty] using built empty
  induction calls with
  | nil => simp
  | cons call rest ih =>
    intro s
    rw [List.foldl_cons, ih, has_insert, or_assoc]
    simp

end Annotations

namespace CallGraph

namespace Graph

/-- A call is listed when it is new, so no callee is listed twice. -/
theorem nodup_callees_add {g : Graph} (h : ∀ fn, (g.callees fn).Nodup) (edge : Edge) (fn : Name) :
    ((g.add edge).callees fn).Nodup := by
  obtain ⟨caller, callee⟩ := edge
  simp only [add, addEdge]
  split
  next => exact h fn
  next accepted =>
    simp only [not_or] at accepted
    by_cases same : caller = fn
    · subst same
      have new : callee ∉ g.callees caller := mt hasEdge_iff.mpr accepted.2.2
      have before := h caller
      rw [callees, Std.HashMap.getD_eq_getD_getElem?] at before new
      simp only [callees, Std.HashMap.getD_alter, beq_self_eq_true, ↓reduceIte, Option.getD_some,
        Array.toList_push]
      exact List.nodup_append.mpr ⟨before, List.pairwise_singleton _ callee,
        fun a listed b only same => new (List.mem_singleton.mp only ▸ same ▸ listed)⟩
    · simpa [callees, Std.HashMap.getD_alter, same] using h fn

theorem nodup_callees_ofEdges (edges : List Edge) (fn : Name) :
    ((ofEdges edges).callees fn).Nodup := by
  suffices kept : ∀ g : Graph, (∀ fn, (g.callees fn).Nodup) →
      ((edges.foldl add g).callees fn).Nodup from
    kept empty fun fn => by simp [callees, empty]
  induction edges with
  | nil => exact fun g h => h fn
  | cons edge rest ih => exact fun g h => ih _ (nodup_callees_add h edge)

end Graph

/-- The name that an identifier has by the last of its definitions. -/
def nameOf? (definitions : List Definition) (id : Bytes) : Option Name :=
  (definitions.reverse.find? (·.id = id)).map (·.name)

theorem nameOf?_append (earlier later : List Definition) (id : Bytes) :
    nameOf? (earlier ++ later) id = (nameOf? later id).or (nameOf? earlier id) := by
  simp only [nameOf?, List.reverse_append, List.find?_append, Option.map_or]

/-- All references of a raw caller, in order. -/
def refsOf (lists : List CallList) (caller : Name) : List Bytes :=
  (lists.filter (·.caller = caller)).flatMap (·.refs)

namespace Gathered

/-- Definitions that come later replace earlier ones. -/
theorem getElem?_foldl_insert (definitions : List Definition) (known : Std.HashMap Bytes Name)
    (id : Bytes) :
    (definitions.foldl (fun known d => known.insert d.id d.name) known)[id]? =
      (nameOf? definitions id).or known[id]? := by
  induction definitions generalizing known with
  | nil => simp [nameOf?]
  | cons d rest ih =>
    rw [List.foldl_cons, ih, ← List.singleton_append, nameOf?_append, Option.or_assoc]
    by_cases same : d.id = id
    · simp [nameOf?, same]
    · simp [nameOf?, same, Std.HashMap.getElem?_insert]

/-- What has been gathered from some dumps: their definitions, their files, and the references of
each raw caller in the order in which callers were first seen. -/
structure Holds (g : Gathered) (definitions : List Definition) (lists : List CallList) : Prop where
  symbols : ∀ id, g.symbols[id]? = nameOf? definitions id
  known : ∀ caller, g.refs.contains caller = true ↔ caller ∈ lists.map (·.caller)
  refs : ∀ caller, (g.refs.getD caller #[]).toList = refsOf lists caller
  order : g.order.toList = (lists.map (·.caller)).eraseDups

theorem holds_empty : Holds empty [] [] := by
  constructor <;> simp [empty, nameOf?, refsOf]

variable {g : Gathered} {definitions : List Definition} {lists : List CallList}

theorem Holds.addCalls (h : Holds g definitions lists) (list : CallList) :
    Holds (g.addCalls list) definitions (lists ++ [list]) where
  symbols := h.symbols
  known caller := by
    by_cases same : list.caller = caller
    · simp [Gathered.addCalls, same]
    · have before := h.known caller
      simp only [Gathered.addCalls, Std.HashMap.contains_alter, beq_iff_eq, same, ↓reduceIte, before]
      simp [Ne.symm same]
  refs caller := by
    have before := h.refs caller
    rw [Std.HashMap.getD_eq_getD_getElem?] at before
    by_cases same : list.caller = caller
    · subst same
      simp [Gathered.addCalls, refsOf, before]
    · rw [← Std.HashMap.getD_eq_getD_getElem?] at before
      simp [Gathered.addCalls, Std.HashMap.getD_alter, refsOf, before, same]
  order := by
    have before := h.order
    rw [List.map_append, List.map_singleton]
    by_cases seen : list.caller ∈ lists.map (·.caller)
    · rw [eraseDups_concat_of_mem seen, ← before]
      simp only [Gathered.addCalls, (h.known list.caller).mpr seen, ↓reduceIte]
    · have absent := Bool.eq_false_iff.mpr (mt (h.known list.caller).mp seen)
      rw [eraseDups_concat_of_not_mem seen, ← before]
      simp only [Gathered.addCalls, absent, Bool.false_eq_true, ↓reduceIte, Array.toList_push]

theorem Holds.add (h : Holds g definitions lists) (dump : Dump) :
    Holds (g.add dump) (definitions ++ dump.definitions) (lists ++ dump.calls) := by
  suffices grown : ∀ (added : List CallList) (g : Gathered) (seen : List CallList),
      Holds g (definitions ++ dump.definitions) seen →
      Holds (added.foldl Gathered.addCalls g) (definitions ++ dump.definitions) (seen ++ added) by
    refine grown dump.calls _ lists ⟨fun id => ?_, h.known, h.refs, h.order⟩
    show (dump.definitions.foldl (fun known d => known.insert d.id d.name) g.symbols)[id]? = _
    rw [getElem?_foldl_insert, h.symbols, nameOf?_append]
  intro added
  induction added with
  | nil => simp
  | cons list rest ih =>
    intro g seen h
    simpa using ih _ _ (h.addCalls list)

theorem holds_ofDumps (dumps : List Dump) :
    Holds (ofDumps dumps) (dumps.flatMap (·.definitions)) (dumps.flatMap (·.calls)) := by
  suffices grown : ∀ (g : Gathered) (definitions : List Definition) (lists : List CallList),
      Holds g definitions lists → Holds (dumps.foldl Gathered.add g)
        (definitions ++ dumps.flatMap (·.definitions)) (lists ++ dumps.flatMap (·.calls)) from
    grown empty [] [] holds_empty
  induction dumps with
  | nil => simp
  | cons dump rest ih =>
    intro g definitions lists h
    simpa using ih _ _ _ (h.add dump)

theorem Holds.references (h : Holds g definitions lists) :
    g.references = (lists.map (·.caller)).eraseDups.flatMap fun caller =>
      (refsOf lists caller).map (caller, ·) := by
  rw [Gathered.references, h.order]
  simp only [h.refs]

theorem Holds.mem_references (h : Holds g definitions lists) (caller : Name) (ref : Bytes) :
    (caller, ref) ∈ g.references ↔ ∃ list ∈ lists, list.caller = caller ∧ ref ∈ list.refs := by
  rw [h.references]
  simp only [List.mem_flatMap, List.mem_eraseDups, List.mem_map, refsOf, List.mem_filter,
    decide_eq_true_eq, Prod.mk.injEq]
  constructor
  · rintro ⟨_, -, _, ⟨list, ⟨listed, rfl⟩, member⟩, rfl, rfl⟩
    exact ⟨list, listed, rfl, member⟩
  · rintro ⟨list, listed, rfl, member⟩
    exact ⟨list.caller, ⟨list, listed, rfl⟩, ref, ⟨list, ⟨listed, rfl⟩, member⟩, rfl, rfl⟩

theorem Holds.resolve (h : Holds g definitions lists) (caller : Name) (ref : Bytes) :
    g.resolve (caller, ref) = match nameOf? definitions ref with
      | some name => .inl ⟨caller.normalize, name.normalize⟩
      | none => .inr ⟨caller.normalize, ref⟩ := by
  have known := h.symbols ref
  cases found : nameOf? definitions ref <;> simp only [Gathered.resolve, known, found]

theorem Holds.mem_resolved (h : Holds g definitions lists) (edge : Edge) :
    edge ∈ g.resolved ↔ ∃ list ∈ lists, ∃ ref ∈ list.refs, ∃ name,
      nameOf? definitions ref = some name ∧ edge = ⟨list.caller.normalize, name.normalize⟩ := by
  rw [Gathered.resolved, List.mem_filterMap]
  constructor
  · rintro ⟨⟨caller, ref⟩, referred, call⟩
    obtain ⟨list, listed, rfl, member⟩ := (h.mem_references caller ref).mp referred
    rw [h.resolve] at call
    cases defined : nameOf? definitions ref with
    | none => simp [defined] at call
    | some name =>
      rw [defined] at call
      exact ⟨list, listed, ref, member, name, defined, (Option.some.inj call).symm⟩
  · rintro ⟨list, listed, ref, member, name, defined, rfl⟩
    refine ⟨(list.caller, ref), (h.mem_references _ _).mpr ⟨list, listed, rfl, member⟩, ?_⟩
    rw [h.resolve, defined]
    rfl

theorem Holds.unresolved (h : Holds g definitions lists) :
    g.unresolved = (lists.map (·.caller)).eraseDups.flatMap fun caller =>
      ((refsOf lists caller).filter fun ref => (nameOf? definitions ref).isNone).map
        fun ref => ⟨caller.normalize, ref⟩ := by
  rw [Gathered.unresolved, h.references, List.filterMap_flatMap]
  congr 1
  funext caller
  induction refsOf lists caller with
  | nil => rfl
  | cons ref rest ih =>
    rw [List.map_cons, List.filterMap_cons, ih, h.resolve, List.filter_cons]
    cases nameOf? definitions ref <;> rfl

/-- Resolution loses and invents nothing. With named functions, there is a call exactly for each
reference of some caller to a defined identifier, unless it is ignored under its normal form; and the
references without a definition are listed one by one, by raw caller in the order first seen. No
ignored call is left, and no callee is listed twice. -/
theorem build_exact (dumps : List Dump) (pairs : List Edge)
    (named : ∀ dump ∈ dumps, (∀ d ∈ dump.definitions, d.name ≠ []) ∧
      ∀ list ∈ dump.calls, list.caller ≠ []) :
    let definitions := dumps.flatMap (·.definitions)
    let lists := dumps.flatMap (·.calls)
    let ignored := Annotations.ofList pairs
    let built := (ofDumps dumps).build ignored.has
    (∀ u v, built.graph.hasEdge u v = true ↔
      (∃ dump ∈ dumps, ∃ list ∈ dump.calls, ∃ ref ∈ list.refs, ∃ name,
        list.caller.normalize = u ∧ nameOf? definitions ref = some name ∧ name.normalize = v) ∧
      ∀ pair ∈ pairs, ¬(pair.caller.normalize = u ∧ pair.callee.normalize = v)) ∧
    built.unresolved = (lists.map (·.caller)).eraseDups.flatMap (fun caller =>
      ((refsOf lists caller).filter fun ref => (nameOf? definitions ref).isNone).map
        fun ref => ⟨caller.normalize, ref⟩) ∧
    (∀ u v, built.graph.hasEdge u v = true → ignored.has ⟨u, v⟩ = false) ∧
    ∀ u, (built.graph.callees u).Nodup := by
  intro definitions lists ignored built
  have holds : Holds (ofDumps dumps) definitions lists := holds_ofDumps dumps
  have edges (u v : Name) : built.graph.hasEdge u v = true ↔
      (⟨u, v⟩ ∈ (ofDumps dumps).resolved ∧ ignored.has ⟨u, v⟩ = false) ∧ u ≠ [] ∧ v ≠ [] := by
    simp only [built, build, Graph.hasEdge_ofEdges, List.mem_filter, Bool.not_eq_true']
  have ignores (u v : Name) : ignored.has ⟨u, v⟩ = false ↔
      ∀ pair ∈ pairs, ¬(pair.caller.normalize = u ∧ pair.callee.normalize = v) := by
    rw [Bool.eq_false_iff, Ne, Annotations.has_ofList]
    simp [Annotations.normal]
  refine ⟨fun u v => ?_, holds.unresolved, fun u v call => ((edges u v).mp call).1.2,
    Graph.nodup_callees_ofEdges _⟩
  rw [edges, holds.mem_resolved, ignores]
  constructor
  · rintro ⟨⟨⟨list, listed, ref, member, name, defined, call⟩, allowed⟩, -⟩
    obtain ⟨dump, given, listed⟩ := List.mem_flatMap.mp listed
    rw [Edge.mk.injEq] at call
    exact ⟨⟨dump, given, list, listed, ref, member, name, call.1.symm, defined, call.2.symm⟩, allowed⟩
  · -- A graph takes no call of an empty name; names that are given have normal forms that are not.
    rintro ⟨⟨dump, given, list, listed, ref, member, name, rfl, defined, rfl⟩, allowed⟩
    refine ⟨⟨⟨list, List.mem_flatMap.mpr ⟨dump, given, listed⟩, ref, member, name, defined, rfl⟩,
      allowed⟩, Name.normalize_ne_nil ((named dump given).2 list listed), Name.normalize_ne_nil ?_⟩
    obtain ⟨d, found, rfl⟩ := Option.map_eq_some_iff.mp defined
    obtain ⟨dump, given, listed⟩ := List.mem_flatMap.mp
      (List.mem_reverse.mp (List.mem_of_find?_eq_some found))
    exact (named dump given).1 d listed

/-- Two dumps of which the second renames an identifier of the first and has more references of its
callers, with a call ignored under the name of a clone. -/
theorem build_exact_two :
    let dumps : List Dump :=
      [⟨[⟨utf8 "f/1", utf8 "f.part.0"⟩, ⟨utf8 "g/2", utf8 "g"⟩],
        [⟨utf8 "f.part.0", [utf8 "g/2", utf8 "x/9", utf8 "h/3"]⟩]⟩,
       ⟨[⟨utf8 "g/2", utf8 "k"⟩, ⟨utf8 "h/3", utf8 "h.isra.1"⟩],
        [⟨utf8 "g", [utf8 "y/8"]⟩, ⟨utf8 "f.part.0", [utf8 "x/9"]⟩]⟩]
    let pairs : List Edge := [⟨utf8 "f.cold", utf8 "h.part.2"⟩]
    let built := (ofDumps dumps).build (Annotations.ofList pairs).has
    (∀ dump ∈ dumps, (∀ d ∈ dump.definitions, d.name ≠ []) ∧
      ∀ list ∈ dump.calls, list.caller ≠ []) ∧
    built.graph.hasEdge (utf8 "f") (utf8 "k") = true ∧
    built.graph.hasEdge (utf8 "f") (utf8 "h") = false ∧
    built.unresolved =
      [⟨utf8 "f", utf8 "x/9"⟩, ⟨utf8 "f", utf8 "x/9"⟩, ⟨utf8 "g", utf8 "y/8"⟩] := by
  intro dumps pairs built
  have named : ∀ dump ∈ dumps, (∀ d ∈ dump.definitions, d.name ≠ []) ∧
      ∀ list ∈ dump.calls, list.caller ≠ [] := by decide
  obtain ⟨edges, unresolved, -, -⟩ := build_exact dumps pairs named
  refine ⟨named, (edges _ _).mpr ⟨?_, by decide⟩, ?_, ?_⟩
  · exact ⟨_, .head _, _, .head _, utf8 "g/2", .head _, utf8 "k", by decide, by decide, by decide⟩
  · rw [Bool.eq_false_iff, Ne, edges]
    exact fun call => call.2 ⟨utf8 "f.cold", utf8 "h.part.2"⟩ (.head _) (by decide)
  · rw [unresolved]
    decide

end Gathered
end CallGraph
end StackBound
