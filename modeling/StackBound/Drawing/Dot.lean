import StackBound.CallGraph.Graph
import StackBound.Text.Quoted

/-! A call graph as DOT text: a line for each function in ascending order, a line for each call of the
graph, and a dashed line for each assumed call that the graph does not have. -/
namespace StackBound

open CallGraph (Edge Graph Overlay)

structure Drawing where
  graph : Graph
  overlay : Overlay
  /-- A path whose functions and calls stand out. -/
  highlight : List Name
  /-- Frame sizes for the labels, if they are wanted. -/
  sizes : Option (Name → Int64)

namespace Drawing

def red : Bytes := utf8 "\"#d62728\""

def preamble : Bytes := utf8 <|
  "digraph G \x7b\n" ++
  "  rankdir=TB;\n" ++
  "  bgcolor=\"transparent\";\n" ++
  "  node [shape=box, style=\"rounded,filled\", fillcolor=white, fontname=\"Helvetica\", fontsize=14, " ++
  "margin=\"0.2,0.1\"];\n" ++
  "  edge [color=\"#555555\"];\n" ++
  "  ranksep=0.5;\n" ++
  "  nodesep=0.3;\n\n"

/-- The calls of the overlay that are not in the graph. -/
def assumed (d : Drawing) : List Edge :=
  d.overlay.edges.filter fun e => !d.graph.hasEdge e.caller e.callee

def nodes (d : Drawing) : List Name :=
  Bytes.sortedSet (d.graph.callers ++ d.graph.calleeNames ++
    d.overlay.edges.flatMap fun e => [e.caller, e.callee])

def highlightedEdges (d : Drawing) : List Edge :=
  List.zipWith Edge.mk d.highlight (d.highlight.drop 1)

def label (d : Drawing) (fn : Name) : Bytes :=
  match d.sizes with
  | none => fn
  | some sizes => fn ++ utf8 "\n" ++ Bytes.ofInt64 (sizes fn) ++ utf8 " B"

def nodeLine (d : Drawing) (lit : Std.HashSet Name) (fn : Name) : Bytes :=
  let attributes := [utf8 "label=" ++ (d.label fn).quoted] ++
    if lit.contains fn then
      [utf8 "color=" ++ red, utf8 "penwidth=2", utf8 "fontcolor=" ++ red]
    else []
  utf8 "  " ++ fn.quoted ++ utf8 " [" ++ Bytes.join (utf8 ", ") attributes ++ utf8 "];\n"

def edgeLine (lit : Std.HashSet Edge) (dashed : Bool) (e : Edge) : Bytes :=
  let attributes := (if dashed then [utf8 "style=dashed"] else []) ++
    if lit.contains e then [utf8 "color=" ++ red, utf8 "penwidth=2"] else []
  let suffix := match attributes with
    | [] => []
    | given => utf8 " [" ++ Bytes.join (utf8 ", ") given ++ utf8 "]"
  utf8 "  " ++ e.caller.quoted ++ utf8 " -> " ++ e.callee.quoted ++ suffix ++ utf8 ";\n"

def dot (d : Drawing) : Bytes :=
  let lit := Std.HashSet.ofList d.highlightedEdges
  preamble ++ d.nodes.flatMap (d.nodeLine (.ofList d.highlight)) ++ utf8 "\n" ++
    d.graph.edges.flatMap (edgeLine lit false) ++ d.assumed.flatMap (edgeLine lit true) ++
    utf8 "\x7d\n"

end Drawing
end StackBound
