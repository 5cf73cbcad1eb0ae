import StackBound.CommandLine.Reply
import StackBound.Proofs.Path
import StackBound.Proofs.Reach
import StackBound.Proofs.Run.Evaluated
import StackBound.Proofs.Text.Quoted

/-! What a drawing shows, read off its text. The beginning of a line tells which function or call it is
about, as quoted names are determined; each call of the graph or the overlay has one line, and so has
each function of such a call. What stands out in the drawing of a scenario is exactly its worst path, or
the recursion in it. -/
namespace StackBound

open CallGraph (Edge Graph Overlay)

namespace Bytes

variable {sep : UInt8}

theorem split_flatMap_line {α : Type} {items : List α} {line text : α → Bytes}
    (ends : ∀ item ∈ items, line item = text item ++ [sep] ∧ sep ∉ text item) (rest : Bytes) :
    split sep (items.flatMap line ++ rest) = items.map text ++ split sep rest := by
  induction items with
  | nil => rfl
  | cons item more ih =>
    obtain ⟨⟨first, free⟩, later⟩ := List.forall_mem_cons.mp ends
    rw [List.flatMap_cons, first, List.append_assoc, List.append_assoc, List.singleton_append,
      split_append_sep, split_of_not_mem free, ih later]
    rfl

end Bytes

namespace Drawing

def arrow (e : Edge) : Bytes := utf8 "  " ++ e.caller.quoted ++ utf8 " -> " ++ e.callee.quoted

def box (fn : Name) : Bytes := utf8 "  " ++ fn.quoted ++ utf8 " ["

def call (dashed red : Bool) (e : Edge) : Bytes :=
  arrow e ++ match dashed, red with
    | false, false => utf8 ";"
    | true, false => utf8 " [style=dashed];"
    | false, true => utf8 " [color=\"#d62728\", penwidth=2];"
    | true, true => utf8 " [style=dashed, color=\"#d62728\", penwidth=2];"

def function (red : Bool) (label : Bytes) (fn : Name) : Bytes :=
  box fn ++ utf8 "label=" ++ label.quoted ++
    match red with
    | false => utf8 "];"
    | true => utf8 ", color=\"#d62728\", penwidth=2, fontcolor=\"#d62728\"];"

def title : List Bytes :=
  [utf8 "digraph G \x7b", utf8 "  rankdir=TB;", utf8 "  bgcolor=\"transparent\";",
    utf8 ("  node [shape=box, style=\"rounded,filled\", fillcolor=white, fontname=\"Helvetica\", " ++
      "fontsize=14, margin=\"0.2,0.1\"];"),
    utf8 "  edge [color=\"#555555\"];", utf8 "  ranksep=0.5;", utf8 "  nodesep=0.3;", []]

theorem preamble_eq : preamble = title.flatMap (· ++ [10]) := by
  simp only [preamble, title, utf8_append]
  decide +kernel

theorem edgeLine_eq (edges : List Edge) (dashed : Bool) (e : Edge) :
    edgeLine (.ofList edges) dashed e = call dashed (edges.contains e) e ++ [10] := by
  rw [← Std.HashSet.contains_ofList]
  cases dashed <;> cases red : (Std.HashSet.ofList edges).contains e <;>
    simp only [edgeLine, call, arrow, red, List.append_assoc] <;> rfl

theorem nodeLine_eq (d : Drawing) (path : List Name) (fn : Name) :
    d.nodeLine (.ofList path) fn = function (path.contains fn) (d.label fn) fn ++ [10] := by
  rw [← Std.HashSet.contains_ofList]
  cases red : (Std.HashSet.ofList path).contains fn <;>
    simp [nodeLine, function, box, red, Bytes.join, List.intercalate] <;> rfl

/-! Which lines begin as that of a given call or function. -/

section Beginnings

variable {e e' : Edge} {fn fn' : Name} {dashed red : Bool} {label : Bytes}

theorem arrow_isPrefixOf_call : (arrow e).isPrefixOf (call dashed red e') = (e' == e) := by
  rw [Bool.eq_iff_iff, List.isPrefixOf_iff_prefix, beq_iff_eq]
  constructor
  · rintro ⟨rest, same⟩
    simp only [arrow, call, List.append_assoc, List.append_cancel_left_eq] at same
    obtain ⟨caller, same⟩ := Bytes.quoted_append_inj same
    obtain ⟨callee, -⟩ := Bytes.quoted_append_inj (List.append_cancel_left same)
    cases e
    cases e'
    exact Edge.mk.injEq .. ▸ ⟨caller.symm, callee.symm⟩
  · rintro rfl
    exact List.prefix_append _ _

theorem arrow_isPrefixOf_function : (arrow e).isPrefixOf (function red label fn) = false := by
  rw [Bool.eq_false_iff, Ne, List.isPrefixOf_iff_prefix]
  rintro ⟨rest, same⟩
  simp only [arrow, function, box, List.append_assoc, List.append_cancel_left_eq] at same
  obtain ⟨-, same⟩ := Bytes.quoted_append_inj same
  cases same

theorem box_isPrefixOf_function : (box fn).isPrefixOf (function red label fn') = (fn' == fn) := by
  rw [Bool.eq_iff_iff, List.isPrefixOf_iff_prefix, beq_iff_eq]
  constructor
  · rintro ⟨rest, same⟩
    simp only [box, function, List.append_assoc, List.append_cancel_left_eq] at same
    exact (Bytes.quoted_append_inj same).1.symm
  · rintro rfl
    simp only [function, List.append_assoc]
    exact List.prefix_append _ _

theorem box_isPrefixOf_call : (box fn).isPrefixOf (call dashed red e) = false := by
  rw [Bool.eq_false_iff, Ne, List.isPrefixOf_iff_prefix]
  rintro ⟨rest, same⟩
  simp only [arrow, call, box, List.append_assoc, List.append_cancel_left_eq] at same
  obtain ⟨-, same⟩ := Bytes.quoted_append_inj same
  cases same

def frame : List Bytes := title ++ [[], utf8 "\x7d", []]

theorem title_subset_frame : title ⊆ frame ∧ [[]] ⊆ frame ∧ [utf8 "\x7d", []] ⊆ frame := by
  simp [frame]

/-- These lines do not begin with a quoted name. -/
theorem plain_frame :
    ∀ line ∈ frame, 10 ∉ line ∧ (utf8 "  \"").isPrefixOf line = false := by
  simp only [frame, title, utf8_append]
  decide +kernel

theorem not_prefix_frame (name rest : Bytes) :
    ∀ line ∈ frame, (utf8 "  " ++ name.quoted ++ rest).isPrefixOf line = false := by
  intro line member
  rw [Bool.eq_false_iff]
  intro begins
  refine Bool.eq_false_iff.mp (plain_frame line member).2 (List.isPrefixOf_iff_prefix.mpr ?_)
  refine List.IsPrefix.trans ?_ (List.isPrefixOf_iff_prefix.mp begins)
  exact ⟨_, rfl⟩

end Beginnings

theorem newline_not_mem_quoted (text : Bytes) : 10 ∉ text.quoted := by
  intro member
  exact absurd (Bytes.visible_quoted text 10 member) (by decide)

theorem newline_not_mem_call (dashed red : Bool) (e : Edge) : 10 ∉ call dashed red e := by
  have plain : 10 ∉ utf8 "  " ∧ 10 ∉ utf8 " -> " := by decide
  simp only [call, arrow, List.mem_append, newline_not_mem_quoted, plain, false_or, or_false]
  cases dashed <;> cases red <;> decide

theorem newline_not_mem_function (red : Bool) (label : Bytes) (fn : Name) :
    10 ∉ function red label fn := by
  have plain : 10 ∉ utf8 "  " ∧ 10 ∉ utf8 " [" ∧ 10 ∉ utf8 "label=" := by decide
  simp only [function, box, List.mem_append, newline_not_mem_quoted, plain, false_or, or_false]
  cases red <;> decide

/-- The text of a drawing, line by line. -/
theorem split_dot (d : Drawing) :
    d.dot.split 10 = title ++
      d.nodes.map (fun fn => function (d.highlight.contains fn) (d.label fn) fn) ++ [[]] ++
      d.graph.edges.map (fun e => call false (d.highlightedEdges.contains e) e) ++
      d.assumed.map (fun e => call true (d.highlightedEdges.contains e) e) ++
      [utf8 "\x7d", []] := by
  have titled (line : Bytes) (member : line ∈ title) :
      line ++ [10] = id line ++ [10] ∧ 10 ∉ id line :=
    ⟨rfl, (plain_frame line (title_subset_frame.1 member)).1⟩
  have last (rest : Bytes) : utf8 "\n" ++ rest = [] ++ 10 :: rest := rfl
  simp only [dot, preamble_eq, List.append_assoc]
  rw [Bytes.split_flatMap_line titled,
    Bytes.split_flatMap_line fun fn _ => ⟨d.nodeLine_eq _ fn, newline_not_mem_function _ _ fn⟩, last,
    Bytes.split_append_sep,
    Bytes.split_flatMap_line fun e _ => ⟨edgeLine_eq _ false e, newline_not_mem_call false _ e⟩,
    Bytes.split_flatMap_line fun e _ => ⟨edgeLine_eq _ true e, newline_not_mem_call true _ e⟩,
    List.map_id]
  rfl

theorem mem_highlightedEdges_iff (d : Drawing) (u v : Name) :
    ⟨u, v⟩ ∈ d.highlightedEdges ↔ [u, v] <:+: d.highlight := by
  unfold highlightedEdges
  induction d.highlight with
  | nil => simp
  | cons first rest ih =>
    rw [List.infix_cons_iff, ← ih]
    cases rest with
    | nil => simp
    | cons next rest =>
      simp only [List.drop_succ_cons, List.drop_zero, List.zipWith_cons_cons, List.mem_cons,
        Edge.mk.injEq, List.cons_prefix_cons, List.nil_prefix, and_true]

section Lines

variable (d : Drawing)

theorem filter_frame {lines : List Bytes} (framing : lines ⊆ frame) (name rest : Bytes) :
    lines.filter (utf8 "  " ++ name.quoted ++ rest).isPrefixOf = [] := by
  refine List.filter_eq_nil_iff.mpr fun line member => ?_
  rw [not_prefix_frame name rest line (framing member)]
  exact Bool.false_ne_true

theorem filter_arrow_calls (e : Edge) (dashed : Bool) (lit : Edge → Bool) (edges : List Edge) :
    (edges.map fun e => call dashed (lit e) e).filter (arrow e).isPrefixOf =
      List.replicate (edges.count e) (call dashed (lit e) e) := by
  have same : (arrow e).isPrefixOf ∘ (fun e => call dashed (lit e) e) = (· == e) :=
    funext fun e' => arrow_isPrefixOf_call
  rw [List.filter_map, same, List.filter_beq, List.map_replicate]

/-- The lines of a call: one for each time it is an edge of the graph or an assumed call. -/
theorem filter_arrow (e : Edge) :
    (d.dot.split 10).filter (arrow e).isPrefixOf =
      List.replicate (d.graph.edges.count e) (call false (d.highlightedEdges.contains e) e) ++
      List.replicate (d.assumed.count e) (call true (d.highlightedEdges.contains e) e) := by
  have functions : (d.nodes.map fun fn =>
      function (d.highlight.contains fn) (d.label fn) fn).filter (arrow e).isPrefixOf = [] := by
    refine List.filter_eq_nil_iff.mpr fun line member => ?_
    obtain ⟨fn, -, rfl⟩ := List.mem_map.mp member
    rw [arrow_isPrefixOf_function]
    exact Bool.false_ne_true
  have beside {lines : List Bytes} (framing : lines ⊆ frame) :
      lines.filter (arrow e).isPrefixOf = [] := by
    rw [arrow, List.append_assoc]
    exact filter_frame framing _ _
  obtain ⟨before, between, after⟩ := title_subset_frame
  simp only [split_dot, List.filter_append, filter_arrow_calls, functions, beside before,
    beside between, beside after, List.nil_append, List.append_nil]

/-- The lines of a function: one for each time it is drawn. -/
theorem filter_box (fn : Name) :
    (d.dot.split 10).filter (box fn).isPrefixOf =
      List.replicate (d.nodes.count fn) (function (d.highlight.contains fn) (d.label fn) fn) := by
  have functions : (d.nodes.map fun fn =>
      function (d.highlight.contains fn) (d.label fn) fn).filter (box fn).isPrefixOf =
        List.replicate (d.nodes.count fn) (function (d.highlight.contains fn) (d.label fn) fn) := by
    have same : (box fn).isPrefixOf ∘ (fun fn =>
        function (d.highlight.contains fn) (d.label fn) fn) = (· == fn) :=
      funext fun fn' => box_isPrefixOf_function
    rw [List.filter_map, same, List.filter_beq, List.map_replicate]
  have calls (dashed : Bool) (lit : Edge → Bool) (edges : List Edge) :
      (edges.map fun e => call dashed (lit e) e).filter (box fn).isPrefixOf = [] := by
    refine List.filter_eq_nil_iff.mpr fun line member => ?_
    obtain ⟨e, -, rfl⟩ := List.mem_map.mp member
    rw [box_isPrefixOf_call]
    exact Bool.false_ne_true
  have beside {lines : List Bytes} (framing : lines ⊆ frame) :
      lines.filter (box fn).isPrefixOf = [] := filter_frame framing _ _
  obtain ⟨before, between, after⟩ := title_subset_frame
  simp only [split_dot, List.filter_append, functions, calls, beside before, beside between,
    beside after, List.nil_append, List.append_nil]

theorem mem_assumed_iff (e : Edge) :
    e ∈ d.assumed ↔ e.callee ∈ d.overlay.own e.caller ∧ d.graph.hasEdge e.caller e.callee = false := by
  rw [assumed, List.mem_filter, Bool.not_eq_true', ← d.overlay.mem_edges_iff]

/-- A drawn call has one line, which is dashed unless the graph has the call. -/
theorem filter_arrow_of_calls (listed : d.graph.Listed)
    (callees : ∀ fn, (d.graph.callees fn).Nodup) (own : ∀ fn, (d.overlay.own fn).Nodup)
    {u v : Name} (call : d.overlay.Calls d.graph u v) :
    (d.dot.split 10).filter (arrow ⟨u, v⟩).isPrefixOf =
      [Drawing.call (!d.graph.hasEdge u v) (d.highlightedEdges.contains ⟨u, v⟩) ⟨u, v⟩] := by
  have drawn := listed.nodup_edges callees
  have extra : d.assumed.Nodup := (Overlay.nodup_edges own).filter _
  rw [filter_arrow]
  cases known : d.graph.hasEdge u v with
  | true =>
    have base : ⟨u, v⟩ ∈ d.graph.edges := (listed.mem_edges_iff u v).mpr known
    have plain : ⟨u, v⟩ ∉ d.assumed := by simp [mem_assumed_iff, known]
    rw [List.count_eq_one_of_mem drawn base, List.count_eq_zero_of_not_mem plain]
    rfl
  | false =>
    have plain : ⟨u, v⟩ ∉ d.graph.edges := by simp [listed.mem_edges_iff, known]
    have assumed : ⟨u, v⟩ ∈ d.assumed := by
      refine (mem_assumed_iff d _).mpr ⟨call.resolve_left ?_, known⟩
      simp [known]
    rw [List.count_eq_zero_of_not_mem plain, List.count_eq_one_of_mem extra assumed]
    rfl

end Lines

end Drawing

/-- What stands out for a scenario is a chain of calls. -/
theorem Scenario.isChain_worst (g : Graph) (sizes : Name → Int64) (s : Scenario)
    (entries : List Name) :
    let result := (s.evaluate g sizes entries).result
    (if result.unbounded then result.cycle else result.path).IsChain (s.additions.overlay.Calls g) := by
  intro result
  rcases s.result_evaluate_cases g sizes entries with none | ⟨entry, -, same⟩
  · simp only [result, none]
    exact .nil
  · have cycle := (s.program g sizes).isChain_cycle_worst entry
    have path := ((s.program g sizes).callPath_worst entry).chain
    rw [Scenario.program, Program.calls_ofGraph] at cycle path
    simp only [result, same]
    split
    · exact cycle
    · exact path

namespace CommandLine.World

open Drawing (arrow box call function)

/-- The outcome that a label finds is that of the scenario it finds. -/
theorem find?_evaluated {a : Analysis} (evaluated : a.Evaluated) {s : Scenario} {o : Outcome}
    {name : Bytes} (scenario : a.scenario? name = some s)
    (outcome : a.evaluation.find? name = some o) :
    o = s.evaluate a.graph a.table.frameSize (Bytes.sortedSet a.entryPoints) := by
  have labels : (fun o : Outcome => decide (o.label = name)) ∘
      Scenario.evaluate a.graph a.table.frameSize (Bytes.sortedSet a.entryPoints) =
        fun s => decide (s.label = name) :=
    funext fun s => by rw [Function.comp_apply, (s.tells_evaluate _ _ a.entryPoints).label]
  rw [evaluated.eq_of, Evaluation.find?, Evaluation.of, List.find?_map, labels] at outcome
  rw [Analysis.scenario?] at scenario
  rw [scenario] at outcome
  exact (Option.some.inj outcome).symm

/-- The drawing of a scenario shows its worst path, or the recursion in it. Each call along this path
has exactly one line; that line is red, and it is dashed unless the graph has the call. All other
calls are not red, and a function is red exactly if it lies on the path. -/
theorem drawing_highlights (r : GraphRequest) (a : Analysis) (evaluated : a.Evaluated)
    (labelled : r.scenario ≠ []) (d : Drawing) (drawn : drawing r a = .ok d) :
    (∃ s ∈ a.scenarios, s.label = r.scenario ∧ d.overlay = s.additions.overlay ∧
      ∃ o, a.evaluation.find? r.scenario = some o ∧
        o = s.evaluate a.graph a.table.frameSize (Bytes.sortedSet a.entryPoints) ∧
        d.highlight = if o.result.unbounded then o.result.cycle else o.result.path) ∧
    (∀ u v, [u, v] <:+: d.highlight → (d.dot.split 10).filter (arrow ⟨u, v⟩).isPrefixOf =
      [call (!a.graph.hasEdge u v) true ⟨u, v⟩]) ∧
    (∀ u v, ¬ [u, v] <:+: d.highlight → ∀ line ∈ d.dot.split 10,
      (arrow ⟨u, v⟩).isPrefixOf line = true → ∃ dashed, line = call dashed false ⟨u, v⟩) ∧
    ∀ fn, ∀ line ∈ d.dot.split 10, (box fn).isPrefixOf line = true →
      line = function (decide (fn ∈ d.highlight)) (d.label fn) fn := by
  simp only [drawing, if_neg labelled] at drawn
  split at drawn
  next s o scenario outcome =>
    obtain rfl := Except.ok.inj drawn
    obtain rfl := find?_evaluated evaluated scenario outcome
    obtain ⟨edges, graph⟩ := evaluated.graph
    have listed : a.graph.Listed := graph ▸ Graph.listed_ofEdges edges
    have callees (fn : Name) : (a.graph.callees fn).Nodup :=
      graph ▸ Graph.nodup_callees_ofEdges edges fn
    have chain := s.isChain_worst a.graph a.table.frameSize (Bytes.sortedSet a.entryPoints)
    have found := List.find?_some scenario
    refine ⟨⟨s, List.mem_of_find?_eq_some scenario, of_decide_eq_true found, rfl, _, outcome, rfl,
      rfl⟩, fun u v step => ?_, fun u v aside line member begins => ?_,
      fun fn line member begins => ?_⟩
    · have call : s.additions.overlay.Calls a.graph u v := by
        have pair := chain.infix step
        simpa using pair
      have lit := (Drawing.mem_highlightedEdges_iff _ u v).mpr step
      rw [Drawing.filter_arrow_of_calls _ listed callees (Overlay.nodup_own_ofEdges _) call,
        List.contains_iff_mem.mpr lit]
    · have dark := mt (Drawing.mem_highlightedEdges_iff _ u v).mp aside
      have inside := List.mem_filter.mpr ⟨member, begins⟩
      rw [Drawing.filter_arrow, List.mem_append] at inside
      simp only [List.contains_eq_mem, dark, decide_false] at inside
      exact inside.elim (fun base => ⟨false, List.eq_of_mem_replicate base⟩)
        fun assumed => ⟨true, List.eq_of_mem_replicate assumed⟩
    · have inside := List.mem_filter.mpr ⟨member, begins⟩
      rw [Drawing.filter_box] at inside
      rw [List.eq_of_mem_replicate inside, List.contains_eq_mem]
  next => cases drawn

section Sample

def sampleScenario : Scenario := ⟨[3], [], .ofList [⟨[1], [1]⟩]⟩

/-- A function that calls another one and, in the scenario, itself. -/
def sampleAnalysis : Analysis where
  table := .empty
  graph := .ofEdges [⟨[1], [2]⟩]
  unresolved := []
  entryPoints := [[1]]
  isrs := []
  scenarios := [sampleScenario]
  evaluation := .of (.ofEdges [⟨[1], [2]⟩]) StackUsage.Table.empty.frameSize [sampleScenario] [[1]]
  reachability := false
  uncalled := []
  warnings := []
  suFiles := 0
  cgraphFiles := 0
  symbols := 0

def sampleRequest : GraphRequest where
  inputs := ⟨[], none, none, none, none, none, none, none, none, false, false⟩
  scenario := [3]
  output := []
  format := utf8 "dot"
  detailed := false

theorem calls_sampleScenario {fn callee : Name}
    (call : sampleScenario.additions.overlay.Calls sampleAnalysis.graph fn callee) :
    fn = [1] ∧ (callee = [1] ∨ callee = [2]) := by
  have pairs : sampleScenario.additions.toList = [⟨[1], [1]⟩] := by cbv
  rcases (Overlay.calls_ofEdges _ _ _ _).mp call with ⟨member, -⟩ | member
  · obtain ⟨rfl, rfl⟩ : fn = [1] ∧ callee = [2] := by simpa using member
    exact ⟨rfl, .inr rfl⟩
  · obtain ⟨rfl, rfl⟩ : fn = [1] ∧ callee = [1] := by simpa [pairs] using member
    exact ⟨rfl, .inl rfl⟩

theorem cycle_sampleScenario :
    let o := sampleScenario.evaluate sampleAnalysis.graph sampleAnalysis.table.frameSize
      (Bytes.sortedSet sampleAnalysis.entryPoints)
    o.result.unbounded = true ∧ o.result.cycle = [[1], [1]] := by
  intro o
  have pairs : sampleScenario.additions.toList = [⟨[1], [1]⟩] := by cbv
  have again : sampleScenario.additions.overlay.Calls sampleAnalysis.graph [1] [1] :=
    (Overlay.calls_ofEdges _ _ _ _).mpr (by simp [pairs])
  let p := sampleScenario.program sampleAnalysis.graph sampleAnalysis.table.frameSize
  have calls : p.Calls = sampleScenario.additions.overlay.Calls sampleAnalysis.graph :=
    Program.calls_ofGraph ..
  have unbounded : (p.worst [] [1]).unbounded = true := by
    rw [Program.unbounded_worst_iff, calls]
    exact ⟨[1], .refl, .single again⟩
  have result : o.result = p.worst [] [1] := by
    have entries : Bytes.sortedSet sampleAnalysis.entryPoints = [[1]] := by decide +kernel
    simp only [o, Scenario.result_evaluate, entries, List.map_cons, List.map_nil, List.foldl_cons,
      List.foldl_nil]
    rw [WorstCase.max, if_pos]
    rw [WorstCase.greater, unbounded]
    rfl
  rw [result]
  have sole {fn callee : Name} (call : p.Calls fn callee) : fn = [1] := by
    rw [calls] at call
    exact (calls_sampleScenario call).1
  exact ⟨unbounded, (Program.loop_worst_of_sole_caller sole unbounded).2⟩

theorem drawing_highlights_sample :
    sampleAnalysis.Evaluated ∧ sampleRequest.scenario ≠ [] ∧
      ∃ d, drawing sampleRequest sampleAnalysis = .ok d ∧ d.highlight = [[1], [1]] ∧
        (d.dot.split 10).filter (arrow ⟨[1], [1]⟩).isPrefixOf = [call true true ⟨[1], [1]⟩] ∧
        ∀ line ∈ d.dot.split 10, (arrow ⟨[1], [2]⟩).isPrefixOf line = true →
          ∃ dashed, line = call dashed false ⟨[1], [2]⟩ := by
  have evaluated : sampleAnalysis.Evaluated := ⟨⟨_, rfl⟩, rfl⟩
  have labelled : sampleRequest.scenario ≠ [] := by decide
  obtain ⟨d, drawn⟩ : ∃ d, drawing sampleRequest sampleAnalysis = .ok d := by
    have scenario : sampleAnalysis.scenario? sampleRequest.scenario = some sampleScenario := rfl
    have label : (sampleScenario.evaluate sampleAnalysis.graph sampleAnalysis.table.frameSize
      (Bytes.sortedSet sampleAnalysis.entryPoints)).label = [3] :=
      (sampleScenario.tells_evaluate _ _ _).label
    have outcome : ∃ o, sampleAnalysis.evaluation.find? sampleRequest.scenario = some o :=
      ⟨_, List.find?_cons_of_pos (decide_eq_true label)⟩
    obtain ⟨o, outcome⟩ := outcome
    simp only [drawing, if_neg labelled, scenario, outcome]
    exact ⟨_, rfl⟩
  obtain ⟨⟨s, member, -, -, o, -, rfl, highlight⟩, onPath, aside, -⟩ :=
    drawing_highlights sampleRequest sampleAnalysis evaluated labelled d drawn
  obtain rfl := List.mem_singleton.mp member
  obtain ⟨unbounded, cycle⟩ := cycle_sampleScenario
  rw [if_pos unbounded, cycle] at highlight
  have base : sampleAnalysis.graph.hasEdge [1] [1] = false := by
    rw [Bool.eq_false_iff, Ne, sampleAnalysis, Graph.hasEdge_ofEdges]
    simp
  have line := onPath [1] [1] (highlight ▸ List.infix_rfl)
  rw [base] at line
  exact ⟨evaluated, labelled, d, drawn, highlight, line,
    aside [1] [2] (by rw [highlight]; decide)⟩

end Sample

end CommandLine.World
end StackBound
