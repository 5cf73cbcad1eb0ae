import StackBound.Proofs.CallGraph.Order
import StackBound.Proofs.Drawing
import StackBound.Proofs.Text.Run

/-! A drawing read back from its text. As quoted names are determined, each line tells whether it shows a
function, a call of the graph or an assumed one, whatever stands out in it and whatever the labels say;
so the functions and calls that are drawn can be listed from the text alone. They are those of the graph
and the overlay together, each once. -/
namespace StackBound

open CallGraph (Edge Graph Overlay)

namespace Drawing

inductive Shown
  | function (fn : Name)
  | call (dashed : Bool) (e : Edge)
  deriving DecidableEq

namespace Shown

/-- Reads a line. One that does not begin with a quoted name shows nothing. -/
def read? (line : Bytes) : Option Shown := do
  let (first, rest) ← (← line.after? (utf8 "  ")).unquote?
  match rest.after? (utf8 " -> ") with
  | none => return .function first
  | some rest =>
    let (second, rest) ← rest.unquote?
    return .call (rest.startsWith (utf8 " [style=dashed")) ⟨first, second⟩

def function? : Shown → Option Name
  | .function fn => some fn
  | .call _ _ => none

def call? (dashed : Bool) : Shown → Option Edge
  | .function _ => none
  | .call style e => if style = dashed then some e else none

@[simp] theorem function?_function (fn : Name) : (Shown.function fn).function? = some fn := rfl

@[simp] theorem function?_call (dashed : Bool) (e : Edge) : (Shown.call dashed e).function? = none :=
  rfl

@[simp] theorem call?_function (dashed : Bool) (fn : Name) :
    (Shown.function fn).call? dashed = none := rfl

@[simp] theorem call?_call (dashed style : Bool) (e : Edge) :
    (Shown.call style e).call? dashed = if style = dashed then some e else none := rfl

theorem read?_call (dashed red : Bool) (e : Edge) :
    read? (Drawing.call dashed red e) = some (.call dashed e) := by
  simp only [read?, Drawing.call, arrow, List.append_assoc, Bytes.after?_append,
    Option.bind_eq_bind, Option.bind_some, Bytes.unquote?_append]
  cases dashed <;> cases red <;> rfl

theorem read?_function (red : Bool) (label : Bytes) (fn : Name) :
    read? (Drawing.function red label fn) = some (.function fn) := by
  simp only [read?, Drawing.function, box, List.append_assoc, Bytes.after?_append,
    Option.bind_eq_bind, Option.bind_some, Bytes.unquote?_append]
  rfl

theorem read?_frame : ∀ line ∈ frame, read? line = none := by
  simp only [frame, title, utf8_append]
  decide +kernel

end Shown

structure Picture where
  functions : List Name
  calls : List Edge
  assumed : List Edge

def Picture.ofText (text : Bytes) : Picture :=
  let shown := (text.split 10).filterMap Shown.read?
  ⟨shown.filterMap Shown.function?, shown.filterMap (Shown.call? false),
    shown.filterMap (Shown.call? true)⟩

section Reading

variable (d : Drawing)

theorem filterMap_frame {lines : List Bytes} (framing : lines ⊆ frame) :
    lines.filterMap Shown.read? = [] :=
  List.filterMap_eq_nil_iff.mpr fun line member => Shown.read?_frame line (framing member)

theorem filterMap_lines {α : Type} {items : List α} {line : α → Bytes} {shows : α → Shown}
    (read : ∀ item, Shown.read? (line item) = some (shows item)) :
    (items.map line).filterMap Shown.read? = items.map shows := by
  have same : Shown.read? ∘ line = some ∘ shows := funext read
  rw [List.filterMap_map, same, List.filterMap_eq_map]

/-- Line by line, a drawing shows its functions, the calls of the graph and the assumed calls. -/
theorem filterMap_dot :
    (d.dot.split 10).filterMap Shown.read? =
      d.nodes.map .function ++ d.graph.edges.map (.call false) ++ d.assumed.map (.call true) := by
  obtain ⟨before, between, after⟩ := title_subset_frame
  simp only [split_dot, List.filterMap_append, filterMap_frame before, filterMap_frame between,
    filterMap_frame after, List.nil_append, List.append_nil,
    filterMap_lines fun fn => Shown.read?_function _ (d.label fn) fn,
    filterMap_lines fun e => Shown.read?_call false _ e,
    filterMap_lines fun e => Shown.read?_call true _ e]

/-- The text determines what is drawn. -/
theorem picture_dot : Picture.ofText d.dot = ⟨d.nodes, d.graph.edges, d.assumed⟩ := by
  simp only [Picture.ofText, filterMap_dot, List.filterMap_append, List.filterMap_map]
  simp [Function.comp_def]

end Reading

theorem mem_nodes_iff {d : Drawing} (listed : d.graph.Listed) (fn : Name) :
    fn ∈ d.nodes ↔
      ∃ other, d.overlay.Calls d.graph fn other ∨ d.overlay.Calls d.graph other fn := by
  have assumed : (∃ e ∈ d.overlay.edges, fn = e.caller ∨ fn = e.callee) ↔
      ∃ other, other ∈ d.overlay.own fn ∨ fn ∈ d.overlay.own other := by
    simp only [← d.overlay.mem_edges_iff]
    constructor
    · rintro ⟨⟨caller, callee⟩, member, rfl | rfl⟩
      · exact ⟨callee, .inl member⟩
      · exact ⟨caller, .inr member⟩
    · rintro ⟨other, member | member⟩
      · exact ⟨_, member, .inl rfl⟩
      · exact ⟨_, member, .inr rfl⟩
  simp only [nodes, Bytes.mem_sortedSet, List.mem_append, List.mem_flatMap, List.mem_cons,
    List.not_mem_nil, or_false, assumed, listed.mem_callers_iff, listed.mem_calleeNames_iff,
    Overlay.Calls]
  grind

/-- A drawing is faithful to the graph and the overlay, whatever is highlighted and however functions
are labelled. After the title it has one line for each function that calls or is called in either, in
ascending order; then one plain line for each call of the graph, in the order of the graph, and one
dashed line for each assumed call that the graph does not have. Each of these calls joins functions
that have a line. Names are told apart by how they are quoted, and all that is drawn can be read back
from the text. -/
theorem dot_faithful (calls : List Edge) (s : Annotations) (highlight : List Name)
    (sizes : Option (Name → Int64)) :
    let g := Graph.ofEdges calls
    let d : Drawing := ⟨g, s.overlay, highlight, sizes⟩
    Function.Injective Bytes.quoted ∧
    ∃ (nodes : List Name) (assumed : List Edge),
      d.dot.split 10 =
        title ++ nodes.map (fun fn => function (highlight.contains fn) (d.label fn) fn) ++ [[]] ++
          g.edges.map (fun e => call false (d.highlightedEdges.contains e) e) ++
          assumed.map (fun e => call true (d.highlightedEdges.contains e) e) ++ [utf8 "\x7d", []] ∧
      Picture.ofText d.dot = ⟨nodes, g.edges, assumed⟩ ∧
      nodes.Pairwise (· < ·) ∧
      (∀ fn, fn ∈ nodes ↔ ∃ other, s.overlay.Calls g fn other ∨ s.overlay.Calls g other fn) ∧
      g.edges.Nodup ∧
      (∀ e, e ∈ g.edges ↔ e ∈ calls ∧ e.caller ≠ [] ∧ e.callee ≠ []) ∧
      assumed.Nodup ∧ (∀ e, e ∈ assumed ↔ e ∈ s.toList ∧ e ∉ g.edges) ∧
      ∀ e ∈ g.edges ++ assumed, e.caller ∈ nodes ∧ e.callee ∈ nodes := by
  intro g d
  have listed : g.Listed := Graph.listed_ofEdges calls
  have drawn (fn : Name) : fn ∈ d.nodes ↔
      ∃ other, s.overlay.Calls g fn other ∨ s.overlay.Calls g other fn := mem_nodes_iff listed fn
  have known (e : Edge) : e ∈ g.edges ↔ g.hasEdge e.caller e.callee = true :=
    listed.mem_edges_iff e.caller e.callee
  have added (e : Edge) : e ∈ d.assumed ↔ e ∈ s.toList ∧ e ∉ g.edges := by
    rw [mem_assumed_iff, known, Bool.not_eq_true]
    exact and_congr_left' (Overlay.mem_own_ofEdges s.toList e.caller e.callee)
  refine ⟨Bytes.quoted_injective, d.nodes, d.assumed, split_dot d, picture_dot d,
    Bytes.pairwise_sortedSet _, drawn, Graph.nodup_edges_ofEdges calls, fun e => ?_,
    (Overlay.nodup_edges (Overlay.nodup_own_ofEdges s.toList)).filter _, added, fun e member => ?_⟩
  · rw [known]
    exact Graph.hasEdge_ofEdges calls e.caller e.callee
  · have call : s.overlay.Calls g e.caller e.callee := by
      rcases List.mem_append.mp member with base | extra
      · exact .inl ((known e).mp base)
      · exact .inr ((mem_assumed_iff d e).mp extra).1
    exact ⟨(drawn _).mpr ⟨_, .inl call⟩, (drawn _).mpr ⟨_, .inr call⟩⟩

end Drawing
end StackBound
